import EscrowMix.Proofs.Node.Signing
import EscrowMix.Proofs.Node.Site

/-!
Commands that fail leave everything as it was. A command is run here with nothing in between and
with a store that does not fail; the wallet, the ledger, the clock and the connections are as they
like. Most commands are refused before they change anything. A claim is undone by giving the ticket
back, which is what happens when the collaborator fails; and a session that makes way for a new one
is given up only when the beginning of the new one can no longer be refused.
-/

namespace EscrowMix

open Node (Command Reply Running Request Surroundings Step Targets)

/-! ### Calls that fail -/

namespace Session

variable {s s' : Session} {now : UInt64} {c : Call} {t : Ticket} {e : Error}

theorem isSaved_of_refused (hc : c.isVerdict = false) (e : Error) :
    Node.isSaved c (.error e) = false := by
  cases c <;> first | rfl | cases hc

/-- A completion that fails right after its claim gives the session back as it was, unless its
failure is noted. -/
theorem perform_undone (hp : s.pending = none) (he : s.epoch = t.epoch) (hc : c.redeemed? = some t)
    (hm : c.IsMatched) (hs : (s.occupied t.transition).perform now c = (.error e, s')) :
    c.Notes e ∨ (s' = s ∧ Node.isSaved c (.error e) = false) := by
  have hh := occupied_honours he
  have hidle := idle_occupied hp t.transition
  cases c with
  | completeMultisig =>
    cases hc
    rw [perform, completeMultisig, redeem_of_honours hh] at hs
    cases hs
  | completeVerification ticket verdict =>
    cases hc
    rw [perform, completeVerification, redeem_of_honours hh] at hs
    cases verdict with
    | accepted => cases hs
    | rejected failure =>
      cases hs
      exact .inl ⟨failure, rfl⟩
  | completeSignature ticket candidate count =>
    cases hc
    obtain ⟨round, hround⟩ := hm
    rcases completeSignature_cases (s.occupied t.transition) t candidate count now with
      ⟨hn, -⟩ | ⟨_, -, -, ⟨-, e'⟩ | ⟨-, _, -, e'⟩ | ⟨-, _, -, e'⟩⟩
    · exact absurd hh (hn round hround)
    · cases hs.symm.trans e'
      exact .inl ⟨_, rfl⟩
    · cases hs.symm.trans e'
      exact .inr ⟨hidle, rfl⟩
    · cases hs.symm.trans e'
  | completeCommit =>
    cases hc
    rw [perform, completeCommit, redeem_of_honours hh] at hs
    cases hs
  | _ => cases hc

/-- The beginning of a session that has not begun is refused only for its arguments. -/
theorem beginAsSender_of_ready (h : s.Ready) (hst : s.status = .notBegun) {schedule : Schedule}
    (hs : schedule.isEmpty = false) (constraints : CoinConstraints) (mixer guarantor : PeerId)
    (now : UInt64) :
    ∃ s', s.perform now (.beginAsSender schedule constraints mixer guarantor) = (.ok (), s') := by
  obtain ⟨hrole, hp⟩ := h hst
  have hrole : s.parties.role = none := hrole
  have hok : ∃ s', s.beginAsSender schedule constraints mixer guarantor now = .ok s' := by
    simp only [beginAsSender, bind_eq_ok, ensureIdle_eq_ok, ensureStatus_eq_ok, check_eq_ok,
      mapError_eq_ok, pure_eq_ok, List.mem_singleton, Bool.not_eq_true,
      Registry.setRole_eq_ok hrole]
    exact ⟨_, (), hp, (), hst, hs, _, rfl, rfl⟩
  exact hok.imp fun _ => perform_beginAsSender

theorem beginInvited_of_ready (h : s.Ready) (hst : s.status = .notBegun) {role : Role}
    (hr : role ≠ .sender) (sender : PeerId) {schedule : Schedule} (hs : schedule.isEmpty = false)
    (fees : FeePolicy) (constraints : CoinConstraints) (now : UInt64) :
    ∃ s', s.perform now (.beginInvited role sender schedule fees constraints) = (.ok (), s') := by
  obtain ⟨hrole, hp⟩ := h hst
  have hrole : s.parties.role = none := hrole
  have hok : ∃ s', s.beginInvited role sender schedule fees constraints now = .ok s' := by
    simp only [beginInvited, bind_eq_ok, ensureIdle_eq_ok, ensureStatus_eq_ok, check_eq_ok,
      mapError_eq_ok, pure_eq_ok, List.mem_singleton, Bool.not_eq_true,
      Registry.setRole_eq_ok hrole]
    exact ⟨_, (), hp, (), hst, hr, hs, _, rfl, rfl⟩
  exact hok.imp fun _ => perform_beginInvited

end Session

namespace Site

open Node.Running (ask orFail step lookup call)

variable {α β : Type} {noted : Error → Prop} {s s₀ s₁ s' : Site} {slot : Slot} {c : Session.Call}
  {t : Ticket}

/-- The session in a slot. -/
def session (s : Site) (slot : Slot) : Session := s.node.directory.session slot

/-! ### Calls -/

theorem runs_call {r : Except Error c.Answer} (h : s.Runs (call slot c).run r s') :
    ∃ env, r = ((s.session slot).perform env.now c).1 ∧
      s' = s.stepped env (.call slot none c) := by
  obtain ⟨a, s₁, ⟨env, rfl, rfl⟩, h⟩ := runs_ask h
  have h : (s.stepped env (.call slot none c)).Runs
    (orFail ((s.session slot).perform env.now c).1).run r s' := h
  obtain ⟨rfl, rfl⟩ := runs_done h
  exact ⟨env, rfl, rfl⟩

/-- The same site with another session in a slot. -/
def put (s : Site) (slot : Slot) (v : Session) : Site := ⟨s.node.put slot v, s.store⟩

/-- A call after which nothing is saved changes at most the session. -/
theorem stepped_of_unsaved {env : Surroundings} (time : Option UInt64)
    {answer : Except Error c.Answer} {v : Session}
    (hs : (s.session slot).perform (time.getD env.now) c = (answer, v))
    (hn : Node.isSaved c answer = false) : s.stepped env (.call slot time c) = s.put slot v := by
  have hout : s.node.perform env (.call slot time c) = ⟨(answer, v), s.node.put slot v, []⟩ := by
    refine (Node.callOn_eq hs).trans ?_
    rw [hn]
    rfl
  rw [stepped, hout]
  rfl

theorem put_session (s : Site) (slot : Slot) : s.put slot (s.session slot) = s := by
  rw [put, session, Node.put_session]

theorem stepped_of_refused {env : Surroundings} (time : Option UInt64) {e : Error}
    (hc : c.isVerdict = false)
    (he : ((s.session slot).perform (time.getD env.now) c).1 = .error e) :
    s.stepped env (.call slot time c) = s := by
  generalize hs : (s.session slot).perform (time.getD env.now) c = out at he
  obtain ⟨answer, v⟩ := out
  obtain rfl : answer = .error e := he
  rw [stepped_of_unsaved time hs (Session.isSaved_of_refused hc e), Session.perform_error hc hs,
    put_session]

theorem failsTo_call (hc : c.isVerdict = false) : s.FailsTo noted (call slot c) s := by
  intro e s' h
  obtain ⟨env, he, rfl⟩ := runs_call h
  exact .inr (stepped_of_refused none hc he.symm)

/-- A call that every counterpart is told about is refused before it is made, or is made as any
other. -/
theorem stepped_announce (s : Site) (env : Surroundings) (slot : Slot) (c : Session.Call) :
    (∃ e, (s.node.announceOn env slot c).answer = .error e ∧
      s.stepped env (.announce slot c) = s) ∨
    ∃ audience, (s.node.announceOn env slot c).answer =
        ((s.session slot).perform env.now c).1.map (fun a => (audience, a)) ∧
      s.stepped env (.announce slot c) = s.stepped env (.call slot none c) := by
  have hstep : s.node.perform env (.announce slot c) = s.node.announceOn env slot c := rfl
  rw [stepped, hstep]
  unfold Node.announceOn
  dsimp only
  split
  · exact .inl ⟨_, rfl, rfl⟩
  · exact .inr ⟨_, rfl, rfl⟩

theorem failsTo_announce (hc : c.isVerdict = false) :
    s.FailsTo noted (step (.announce slot c) rfl) s := by
  intro e s' h
  obtain ⟨env, he, rfl⟩ := runs_step h
  rcases s.stepped_announce env slot c with ⟨_, -, hs⟩ | ⟨audience, ha, hs⟩
  · exact .inr hs
  · rw [hs]
    exact .inr (stepped_of_refused none hc (map_eq_error.1 (ha.symm.trans he.symm)))

theorem failsTo_abandon : s.FailsTo noted (step (.abandon slot) rfl) s := by
  intro e s' h
  obtain ⟨env, he, rfl⟩ := runs_step h
  have he : (((s.session slot).perform env.now (.reset true)).1.map fun _ =>
      Node.reachable env (s.session slot).counterparts) = .error e := he.symm
  exact .inr (stepped_of_refused (c := .reset true) none rfl (map_eq_error.1 he))

/-! ### Claims -/

/-- The site after the claim of a transition. -/
def occupied (s : Site) (slot : Slot) (t : Ticket) : Site :=
  s.put slot ((s.session slot).occupied t.transition)

/-- The session in the slot hands out the ticket. -/
structure Hands (s : Site) (slot : Slot) (t : Ticket) : Prop where
  idle : (s.session slot).pending = none
  begun : (s.session slot).status ≠ .notBegun
  epoch : t.epoch = (s.session slot).epoch

theorem stepped_claim {env : Surroundings} (time : Option UInt64) {a : c.Answer} {v : Session}
    (hc : Node.isClaim c = true)
    (hs : (s.session slot).perform (time.getD env.now) c = (.ok a, v)) :
    ∃ t, c.claimed? (.ok a) = some t ∧ s.Hands slot t ∧
      s.stepped env (.call slot time c) = s.occupied slot t := by
  have ht : ∃ t, c.claimed? (.ok a) = some t := by
    cases c <;> first | exact ⟨_, rfl⟩ | cases hc
  have hn : Node.isSaved c (.ok a) = false := by
    cases c <;> first | rfl | cases hc
  obtain ⟨t, ht⟩ := ht
  obtain ⟨hp, hst, he, rfl⟩ := Session.perform_claimed hs ht
  exact ⟨t, ht, ⟨hp, hst, he⟩, stepped_of_unsaved time hs hn⟩

theorem Hands.lt_length (h : s.Hands slot t) : slot < s.node.directory.sessions.length :=
  Directory.lt_length_of_begun h.begun

theorem Hands.session_occupied (h : s.Hands slot t) :
    (s.occupied slot t).session slot = (s.session slot).occupied t.transition :=
  Directory.session_update_self h.lt_length

theorem put_occupied (v : Session) : (s.occupied slot t).put slot v = s.put slot v := by
  simp [occupied, put, Node.put, Directory.update]

/-- A ticket that is given back right after its claim undoes it. -/
theorem failsTo_giveBack (h : s.Hands slot t) (e : Error) :
    (s.occupied slot t).FailsTo noted (Node.giveBack slot t e : Running α) s := by
  have hh := Session.occupied_honours h.epoch.symm
  have hr : ∀ now, ((s.occupied slot t).session slot).perform now (.release t) =
      (.ok (), s.session slot) := by
    intro now
    rw [h.session_occupied, Session.perform, Session.release_of_honours hh,
      Session.idle_occupied h.idle]
  refine failsTo_bind (fun e' s' hc => ?_) fun a s₁ hc e' s' hthrow => ?_
  · obtain ⟨env, he, -⟩ := runs_call hc
    rw [hr] at he
    cases he
  · obtain ⟨env, -, rfl⟩ := runs_call hc
    obtain rfl := still_throw e _ _ _ hthrow
    rw [stepped_of_unsaved none (hr _) rfl, put_occupied, put_session]
    exact .inr rfl

/-- A completion that fails right after its claim undoes it, unless its failure is noted. -/
theorem failsTo_settle {f : c.Answer → Running β} (h : s.Hands slot t)
    (hc : c.redeemed? = some t) (hm : c.IsMatched) (hn : ∀ e, c.Notes e → noted e)
    (hf : ∀ a, Sure (f a)) : (s.occupied slot t).FailsTo noted (call slot c >>= f) s := by
  refine failsTo_bind (fun e s' hcall => ?_) fun a _ _ => (hf a).failsTo
  obtain ⟨env, he, rfl⟩ := runs_call hcall
  generalize hs : ((s.occupied slot t).session slot).perform env.now c = out at he
  obtain ⟨answer, v⟩ := out
  obtain rfl : .error e = answer := he
  have hs' := hs
  rw [h.session_occupied] at hs
  rcases Session.perform_undone h.idle h.epoch.symm hc hm hs with he | ⟨rfl, hsaved⟩
  · exact .inl (hn e he)
  · rw [stepped_of_unsaved none hs' hsaved, put_occupied, put_session]
    exact .inr rfl

/-- A claim is undone if what follows it undoes it. -/
theorem failsTo_claim {f : c.Answer → Running β} (hc : Node.isClaim c = true)
    (hf : ∀ a t, c.claimed? (.ok a) = some t → c.Claims t.transition → s.Hands slot t →
      (s.occupied slot t).FailsTo noted (f a) s) :
    s.FailsTo noted (call slot c >>= f) s := by
  have hv : c.isVerdict = false := by cases c <;> first | rfl | cases hc
  refine failsTo_bind (failsTo_call hv) fun a s₁ hcall => ?_
  obtain ⟨env, ha, rfl⟩ := runs_call hcall
  have hs : (s.session slot).perform env.now c = (.ok a, ((s.session slot).perform env.now c).2) :=
    Prod.ext ha.symm rfl
  obtain ⟨t, ht, hh, hocc⟩ := stepped_claim none hc hs
  rw [hocc]
  exact hf a t ht (Session.perform_claims hs ht) hh

theorem failsTo_announcedClaim {f : (Role × Targets) × c.Answer → Running β}
    (hc : Node.isClaim c = true)
    (hf : ∀ audience a t, c.claimed? (.ok a) = some t → c.Claims t.transition → s.Hands slot t →
      (s.occupied slot t).FailsTo noted (f (audience, a)) s) :
    s.FailsTo noted (step (.announce slot c) rfl >>= f) s := by
  have hv : c.isVerdict = false := by cases c <;> first | rfl | cases hc
  refine failsTo_bind (failsTo_announce hv) fun out s₁ hcall => ?_
  obtain ⟨env, ha, rfl⟩ := runs_step hcall
  rcases s.stepped_announce env slot c with ⟨e, he, -⟩ | ⟨audience, hout, hstep⟩
  · cases ha.trans he
  · obtain ⟨a, hs, rfl⟩ := map_eq_ok.1 (hout.symm.trans ha.symm)
    have hs : (s.session slot).perform env.now c =
        (.ok a, ((s.session slot).perform env.now c).2) := Prod.ext hs rfl
    obtain ⟨t, ht, hh, hocc⟩ := stepped_claim none hc hs
    rw [hstep, hocc]
    exact hf audience a t ht (Session.perform_claims hs ht) hh

/-- What follows the wallet's or the ledger's answer is all that can fail. -/
theorem failsTo_askWallet {p : Wallet.Asking α} {f : Except Error α → Running β}
    (hf : ∀ r, s.FailsTo noted (f r) s₀) : s.FailsTo noted (Node.askWallet p >>= f) s₀ := by
  refine failsTo_bind (fun e s' h => ?_) fun r s₁ h => ?_
  · obtain ⟨⟨_, he⟩, -⟩ := runs_askWallet h
    cases he
  · obtain ⟨-, rfl⟩ := runs_askWallet h
    exact hf r

theorem failsTo_askLedger {p : Ledger.Asking α} {f : Except Error α → Running β}
    (hf : ∀ r, s.FailsTo noted (f r) s₀) : s.FailsTo noted (Node.askLedger p >>= f) s₀ := by
  refine failsTo_bind (fun e s' h => ?_) fun r s₁ h => ?_
  · obtain ⟨⟨_, he⟩, -⟩ := runs_askLedger h
    cases he
  · obtain ⟨-, rfl⟩ := runs_askLedger h
    exact hf r

/-! ### Beginning a session -/

/-- Where a session is about to begin: nothing was changed yet, or the slot is new. -/
def MadeRoom (s : Site) (slot : Slot) (s₁ : Site) : Prop :=
  s₁ = s ∨ ((s₁.session slot).Ready ∧ (s₁.session slot).status = .notBegun)

/-- An enrolment is refused, or the directory is the one with the session. -/
theorem runs_enroll {id : SessionId} {now : UInt64} {r : Except Error (Slot × Option Eviction)}
    (h : s.Runs (step (.enroll id now) rfl).run r s₁) :
    ((∃ e, r = .error e) ∧ s₁ = s) ∨
      ∃ out d, s.node.directory.getOrCreate id now = .ok (out, d) ∧ r = .ok out ∧
        s₁ = ⟨⟨s.node.config, d⟩, s.store⟩ := by
  obtain ⟨env, rfl, rfl⟩ := runs_step h
  have hstep : s.node.perform env (.enroll id now) =
    s.node.enrolled (s.node.directory.getOrCreate id now) := rfl
  rw [stepped, hstep]
  cases hd : s.node.directory.getOrCreate id now with
  | error e => exact .inl ⟨⟨e, rfl⟩, rfl⟩
  | ok r => exact .inr ⟨r.1, r.2, rfl, rfl, rfl⟩

theorem failsTo_enroll {id : SessionId} {now : UInt64} :
    s.FailsTo noted (step (.enroll id now) rfl) s := by
  intro e s' h
  rcases runs_enroll h with ⟨-, rfl⟩ | ⟨out, d, -, he, -⟩
  · exact .inr rfl
  · cases he

/-- Whoever has to make way for a new session has done so before that begins. -/
theorem failsTo_evict {id : SessionId} {now : UInt64} {evicted : Option Eviction}
    {f : List Outbound → Running β}
    (h : s.Runs (step (.enroll id now) rfl).run (.ok (slot, evicted)) s₁)
    (hf : ∀ out s₂, s.MadeRoom slot s₂ → s₂.FailsTo noted (f out) s) :
    s₁.FailsTo noted (Node.evict evicted >>= f) s := by
  rcases runs_enroll h with ⟨⟨e, he⟩, -⟩ | ⟨out, d, hd, hout, rfl⟩
  · cases he
  cases hout
  rcases Directory.getOrCreate_ok hd with ⟨hactive, rfl⟩ | ⟨d₁, hv, rfl, rfl⟩
  · cases (Directory.getOrCreate_of_active hactive).symm.trans hd
    refine failsTo_bind (sure_pure []).failsTo fun out s₂ hr => ?_
    obtain rfl := still_pure [] _ _ _ hr
    exact hf out _ (.inl rfl)
  · refine failsTo_bind (sure_evict evicted).failsTo fun out s₂ hr => hf out s₂ (.inr ?_)
    have hs : s₂.session s.node.directory.sessions.length = .fresh id d₁.fees now := by
      rw [session, congrArg node (runs_evict hr), ← hv.length_eq]
      exact Directory.session_opened_self
    rw [hs]
    exact ⟨Session.fresh_ready id d₁.fees now, rfl⟩

theorem runs_unless {p : Prop} [Decidable p] {x : Running Unit} {r : Except Error Unit} (hp : ¬p)
    (h : s.Runs (if p then x else pure ()).run r s') : s' = s := by
  rw [if_neg hp] at h
  exact (runs_done h).2

/-- A session that has begun is not dropped. -/
theorem failsTo_discard {id : SessionId} {e : Error} (hst : (s.session slot).status ≠ .notBegun) :
    s.FailsTo noted (Node.discardIfUnused slot id >>= fun _ => (throw e : Running β)) s := by
  have hstill : ∀ r s₁, s.Runs (Node.discardIfUnused slot id).run r s₁ → s₁ = s := by
    intro r s₁ h
    obtain ⟨_, s₂, hview, h⟩ := runs_bind h
    obtain ⟨_, rfl, _, rfl, rfl⟩ := runs_request hview
    exact runs_unless hst h
  refine failsTo_bind (fun e' s' h => .inr (hstill _ _ h)) fun _ s₁ h => ?_
  obtain rfl := hstill _ _ h
  exact (still_throw e).failsTo

/-- A call that begins every session that has not begun cannot be refused in a new slot, and where
it is refused, nothing was changed. -/
theorem failsTo_begin {now : UInt64} {f : Except Error c.Answer × Session → Running β}
    (hroom : s.MadeRoom slot s₁) (hready : (s.session slot).Ready) (hc : c.isVerdict = false)
    (hbegins : ∀ v : Session, v.Ready → v.status = .notBegun → (v.perform now c).1.isOk = true)
    (hok : ∀ a v, Sure (f (.ok a, v)))
    (herr : ∀ e v, (s.session slot).status ≠ .notBegun → s.FailsTo noted (f (.error e, v)) s) :
    s₁.FailsTo noted (ask (.step (.call slot (some now) c)) >>= f) s := by
  refine failsTo_bind (sure_request _).failsTo fun out s₂ h => ?_
  obtain ⟨_, hout, env, rfl, rfl⟩ := runs_request h
  obtain rfl : out = (s₁.session slot).perform now c := Except.ok.inj hout
  generalize hs : (s₁.session slot).perform now c = out
  obtain ⟨e | a, v⟩ := out
  · have hst : ¬((s₁.session slot).Ready ∧ (s₁.session slot).status = .notBegun) := by
      rintro ⟨hr, hst⟩
      have hbegun := hbegins _ hr hst
      rw [hs] at hbegun
      cases hbegun
    rcases hroom with rfl | hroom
    · rw [stepped_of_refused (some now) hc (congrArg Prod.fst hs)]
      exact herr e v fun h => hst ⟨hready, h⟩
    · exact absurd hroom hst
  · exact (hok a v).failsTo

/-! ### Commands -/

/-- A condition that throws changes nothing. -/
theorem failsTo_check {p : Prop} [Decidable p] {e : Error} {f : Unit → Running β}
    (hf : ¬p → s.FailsTo noted (f ()) s) :
    s.FailsTo noted (if p then (throw e : Running Unit) >>= f else f ()) s := by
  split
  · exact failsTo_bind (still_throw e).failsTo fun _ s₁ h => nomatch (runs_done h).1
  · next hp => exact hf hp

variable (s) in
theorem failsTo_beginSend (hready : ∀ slot, (s.session slot).Ready) (destinations : List Address)
    (each : Amount) (constraints : CoinConstraints) (mixer guarantor : PeerId) :
    s.FailsTo noted (Node.beginSend destinations each constraints mixer guarantor) s := by
  refine (still_orFail _).failsTo_bind fun schedule _ => ?_
  refine failsTo_check fun hs => ?_
  refine (still_ensureConnected _ _).failsTo_bind fun _ _ => ?_
  refine (still_ensureConnected _ _).failsTo_bind fun _ _ => ?_
  refine (still_request (q := .freshId) fun _ _ _ h => h).failsTo_bind fun id _ => ?_
  refine (still_request (q := .clock) fun _ _ _ h => h).failsTo_bind fun now _ => ?_
  refine failsTo_bind failsTo_enroll fun enrolled s₁ h => ?_
  obtain ⟨slot, evicted⟩ := enrolled
  refine failsTo_evict h fun cancellations s₂ hroom => ?_
  refine failsTo_begin hroom (hready slot) rfl (fun v hv hst => ?_) (fun _ v => sure_pure _)
    fun e v hst => failsTo_discard hst
  obtain ⟨v', hbegun⟩ := Session.beginAsSender_of_ready hv hst (Bool.eq_false_iff.2 hs) constraints
    mixer guarantor now
  rw [hbegun]
  rfl

variable (s) in
theorem failsTo_onInvite (hready : ∀ slot, (s.session slot).Ready) (from_ : PeerId)
    (id : SessionId) (role : Role) (schedule : Schedule) (fees : FeePolicy)
    (constraints : CoinConstraints) (config : Config) :
    s.FailsTo noted (Node.onInvite from_ id role schedule fees constraints config) s := by
  refine (still_ensureConnected _ _).failsTo_bind fun _ _ => ?_
  refine failsTo_check fun hr => ?_
  refine failsTo_check fun hs => ?_
  refine (still_orFail _).failsTo_bind fun _ _ => ?_
  refine (still_request (q := .clock) fun _ _ _ h => h).failsTo_bind fun now _ => ?_
  refine failsTo_bind failsTo_enroll fun enrolled s₁ h => ?_
  obtain ⟨slot, evicted⟩ := enrolled
  refine failsTo_evict h fun cancellations s₂ hroom => ?_
  refine failsTo_begin hroom (hready slot) rfl (fun v hv hst => ?_)
    (fun _ v => sure_bind (sure_request _) fun _ => sure_pure _) fun e v hst => failsTo_discard hst
  obtain ⟨v', hbegun⟩ := Session.beginInvited_of_ready hv hst hr from_ (Bool.eq_false_iff.2 hs) fees
    constraints now
  rw [hbegun]
  rfl

variable (s) in
theorem failsTo_deriveMultisig (id : SessionId) : s.FailsTo noted (Node.deriveMultisig id) s := by
  refine (still_lookup id).failsTo_bind fun slot _ => ?_
  refine failsTo_claim rfl fun out t ht hclaims hh => ?_
  obtain ⟨ticket, keys⟩ := out
  obtain rfl : ticket = t := Option.some.inj ht
  refine failsTo_askWallet fun r => ?_
  rcases r with e | escrow
  · exact failsTo_giveBack hh e
  · exact failsTo_settle hh rfl hclaims (fun _ h => h.elim) fun _ => sure_pure _

variable (s) in
theorem failsTo_verifyDeposits (id : SessionId) (config : Config) :
    s.FailsTo (Command.verifyDeposits id).Notes (Node.verifyDeposits id config) s := by
  refine (still_lookup id).failsTo_bind fun slot _ => ?_
  refine failsTo_claim rfl fun out t ht hclaims hh => ?_
  obtain ⟨ticket, plan⟩ := out
  obtain rfl : ticket = t := Option.some.inj ht
  refine failsTo_askLedger fun r => ?_
  rcases r with e | verdict
  · exact failsTo_giveBack hh e
  · exact failsTo_settle hh rfl hclaims (fun _ h => h) fun _ => sure_pure _

variable (s) in
theorem failsTo_contributeSignature (id : SessionId) :
    s.FailsTo (Command.contributeSignature id).Notes (Node.contributeSignature id) s := by
  refine (still_lookup id).failsTo_bind fun slot _ => ?_
  refine failsTo_announcedClaim rfl fun audience out t ht hclaims hh => ?_
  obtain ⟨ticket, plan⟩ := out
  obtain rfl : ticket = t := Option.some.inj ht
  refine failsTo_askWallet fun r => ?_
  rcases r with e | ⟨candidate, count⟩
  · exact failsTo_giveBack hh e
  · exact failsTo_settle hh rfl hclaims (fun _ h => h) fun _ => sure_pure _

variable (s) in
theorem failsTo_broadcast (slot : Slot) (final : Option Bytes) :
    s.FailsTo noted (Node.broadcast slot final) s := by
  refine failsTo_claim rfl fun out t ht hclaims hh => ?_
  obtain ⟨ticket, tx⟩ := out
  obtain rfl : ticket = t := Option.some.inj ht
  refine failsTo_askWallet fun r => ?_
  rcases r with e | _
  · exact failsTo_giveBack hh e
  · exact failsTo_settle hh rfl hclaims (fun _ h => h.elim) fun _ => sure_pure _

theorem sure_recordSweep (outcomes : List SweepOutcome) : Sure (Node.recordSweep outcomes) := by
  induction outcomes with
  | nil => exact sure_pure ()
  | cons o rest ih =>
    cases o with
    | reset id =>
      exact sure_bind (sure_bind (sure_request _) fun _ => sure_pure ()) fun _ => ih
    | flagged id =>
      refine sure_bind (sure_request _) fun found => ?_
      rcases found with e | slot
      · exact ih
      · exact sure_bind (sure_request _) fun _ => ih

variable (s) in
/-- Every command but a restart leaves things as they were if it fails. -/
theorem failsTo_program (hready : ∀ slot, (s.session slot).Ready) (config : Config) {c : Command}
    (hc : c ≠ .restore) : s.FailsTo c.Notes (ExceptT.mk (c.program config)) s := by
  cases c with
  | beginSend => exact failsTo_beginSend s hready _ _ _ _ _
  | onInvite => exact failsTo_onInvite s hready _ _ _ _ _ _ config
  | deriveMultisig id => exact failsTo_deriveMultisig s id
  | verifyDeposits id => exact failsTo_verifyDeposits s id config
  | contributeSignature id => exact failsTo_contributeSignature s id
  | commit id =>
    refine (still_lookup id).failsTo_bind fun slot _ => ?_
    refine failsTo_bind (failsTo_broadcast s slot none) fun tx s₁ _ => ?_
    exact (sure_bind (sure_request _) fun _ => sure_pure _).failsTo
  | onCommit id final =>
    refine (still_lookup id).failsTo_bind fun slot _ => ?_
    refine (still_view slot).failsTo_bind fun v _ => ?_
    split
    · split
      · exact (still_pure _).failsTo
      · exact (still_throw _).failsTo
    · exact failsTo_bind (failsTo_broadcast s slot (some final)) fun _ _ _ => (sure_pure _).failsTo
  | attachPeer id | onAddressAndKey _ id | onDepositNotice id | onSignatureRound id
  | markReclaimable id =>
    refine (still_lookup id).failsTo_bind fun slot _ => ?_
    exact failsTo_bind (failsTo_call rfl) fun _ _ _ => (sure_pure _).failsTo
  | setOwnKey id | recordOwnDeposit id =>
    refine (still_lookup id).failsTo_bind fun slot _ => ?_
    exact failsTo_bind (failsTo_announce rfl) fun _ _ _ => (sure_pure _).failsTo
  | cancel id =>
    refine (still_lookup id).failsTo_bind fun slot _ => ?_
    refine failsTo_bind failsTo_abandon fun targets s₁ _ => ?_
    exact (sure_bind (sure_request _) fun _ => sure_pure _).failsTo
  | onCancel id =>
    refine (still_lookup id).failsTo_bind fun slot _ => ?_
    refine failsTo_bind (failsTo_call rfl) fun _ s₁ _ => ?_
    exact (sure_bind (sure_request _) fun _ => sure_pure _).failsTo
  | sweep =>
    refine Sure.failsTo (sure_bind (sure_request _) fun now => ?_)
    refine sure_bind (sure_request _) fun outcomes => ?_
    exact sure_bind (sure_recordSweep outcomes) fun _ => sure_pure _
  | restore => exact absurd rfl hc
  | requiredCoins id role =>
    refine (still_lookup id).failsTo_bind fun slot _ => ?_
    refine (still_view slot).failsTo_bind fun v _ => ?_
    exact (still_orFail _).failsTo_bind fun _ _ => (sure_pure _).failsTo
  | status id =>
    refine (still_lookup id).failsTo_bind fun slot _ => ?_
    exact (still_view slot).failsTo_bind fun v _ => (sure_pure _).failsTo

end Site

/-- In every state that a node can come to, a command other than a restart that runs with nothing in
between and fails leaves the node and its store just as they were; the exceptions are the verdict on
the deposits and the end of a session whose wallet broke its word. Even then no transition is left
outstanding, if no other command was waiting. -/
theorem Process.Reaches.unchanged_of_failure {config : Config} {w : Process} {c : Command}
    {store : Store.Memory} {e : Error} {s' : Site} (hw : (start config).Reaches w)
    (hc : c ≠ .restore) (h : Site.Runs ⟨w.node, store⟩ (c.program w.node.config) (.error e) s') :
    (c.Notes e ∨ s' = ⟨w.node, store⟩) ∧
      (w.AtRest → ∀ slot, (s'.session slot).pending = none) := by
  refine ⟨Site.failsTo_program ⟨w.node, store⟩ hw.settled.ready w.node.config hc e s' h, ?_⟩
  intro hrest
  exact (hw.run h).settled.pending (hrest.run _ c _)

/-! ### A wallet that is locked -/

namespace LockedWallet

open SigningMixer

/-- The wallet refuses everything. -/
def locked : Circumstances := { circumstances with wallet := fun _ => .error .locked }

/-- An invited Mixer knows all keys. -/
def keyed : Site :=
  Site.told locked ⟨(Process.start .standard).node, .empty⟩
    [.onInvite ⟨1⟩ sessionId .mixer ⟨[⟨⟨"payee"⟩, ⟨100000⟩⟩]⟩ Config.standard.feePolicy .none,
      .attachPeer sessionId .guarantor ⟨3⟩, .setOwnKey sessionId ⟨"mixer"⟩ mixerKey,
      .onAddressAndKey ⟨1⟩ sessionId .sender ⟨"sender"⟩ senderKey,
      .onAddressAndKey ⟨3⟩ sessionId .guarantor ⟨"guarantor"⟩ guarantorKey]

/-- The escrow is to be derived. -/
def derivation : Program Node.interface (Except Error Reply) :=
  (Command.deriveMultisig sessionId).program keyed.node.config

end LockedWallet

open SigningMixer LockedWallet in
theorem Process.Reaches.unchanged_of_locked_wallet :
    (keyed.session 0).status = .pubKey ∧ keyed.store.list = [sessionId] ∧
      ∃ w s', (start .standard).Reaches w ∧ w.AtRest ∧ w.node = keyed.node ∧
        Site.Runs ⟨w.node, keyed.store⟩ derivation (.error (.wallet .locked)) s' ∧
        s' = ⟨w.node, keyed.store⟩ ∧ ∀ slot, (s'.session slot).pending = none := by
  have hst : (keyed.session 0).status = .pubKey := by decide +kernel
  have hlist : keyed.store.list = [sessionId] := by decide +kernel
  have hfails : failure? (derivation.run (Site.answerIn locked) keyed).1 =
      some (.wallet .locked) := by decide +kernel
  obtain ⟨w, hw, hrest, hnode⟩ := (Reaches.refl (w := start .standard)).told nofun locked .empty _
  have hnode : w.node = keyed.node := hnode
  have h : Site.Runs ⟨w.node, keyed.store⟩ derivation (.error (.wallet .locked))
      (derivation.run (Site.answerIn locked) keyed).2 := by
    rw [hnode, ← failure?_eq_some.1 hfails]
    exact Site.runs_run locked derivation keyed
  have hc : Command.deriveMultisig sessionId ≠ .restore := nofun
  obtain ⟨hunchanged, hpending⟩ := unchanged_of_failure hw hc (by rw [hnode] at h ⊢; exact h)
  exact ⟨hst, hlist, w, _, hw, hrest, hnode, h, hunchanged.resolve_left id, hpending hrest⟩

end EscrowMix
