import EscrowMix.Proofs.Node.Conduct
import EscrowMix.Proofs.Node.Upkeep
import EscrowMix.Proofs.Session.Admitted

/-!
Who this node is. In every state that a node can come to, also after a restart on any store, a
session that has begun knows the own role: the beginning sets it, no call takes it away but one that
clears the session, and a snapshot without it is not read.
-/

namespace EscrowMix

open Node (Command Request Running Step Within)

/-! ### Calls -/

namespace Session

variable {s s' : Session} {now : UInt64} {c : Call}

/-- Once the session has begun, the own role is known. -/
def KnowsRole (s : Session) : Prop := s.status ≠ .notBegun → s.role.isSome

theorem fresh_knowsRole (id : SessionId) (fees : FeePolicy) (now : UInt64) :
    (fresh id fees now).KnowsRole :=
  fun hst => absurd rfl hst

/-- The own role is the same, or the session is cleared. -/
def KeepsRole (s s' : Session) : Prop := s'.status = .notBegun ∨ s'.role = s.role

theorem promoted_keepsRole (h : s'.role = s.role) (now : UInt64) :
    s.KeepsRole ((s'.promoted now).touched now) :=
  .inr ((congrArg Registry.role (promoted_parties s' now)).trans h)

theorem Outcome.keepsRole {answer : Except Error c.Answer}
    (h : Outcome s now c answer s') (hc : c.begins = false) : s.KeepsRole s' := by
  cases h with
  | begunAsSender | begunInvited => cases hc
  | @ownKey own address key =>
    have hrole : (s.keyed own address key now).role = s.role :=
      (congrArg Registry.role (keyed_parties ..)).trans rfl
    exact promoted_keepsRole hrole now
  | @peerKey _ role _ _ peer =>
    refine promoted_keepsRole ?_ now
    exact introduced_role _ role peer
  | multisig | ownDeposit | peerDeposit =>
    refine promoted_keepsRole ?_ now
    rfl
  | reset => exact .inl rfl
  | miscounted | forced =>
    rw [forceReset_eq]
    exact .inl rfl
  | _ => exact .inr rfl

/-- Only the beginning of a session sets the own role. -/
theorem perform_keepsRole (s : Session) (now : UInt64) (hc : c.begins = false) :
    s.KeepsRole (s.perform now c).2 :=
  (perform_outcome rfl).keepsRole hc

theorem setRole_isSome {g g' : Registry} {role : Role} (h : g.setRole role = .ok g') :
    g'.role.isSome := by
  unfold Registry.setRole at h
  split at h
  · next hcurrent =>
    split at h
    · cases h
      rw [hcurrent]
      rfl
    · cases h
  · cases h
    rfl

theorem Outcome.knowsRole {answer : Except Error c.Answer}
    (ho : Outcome s now c answer s') (h : s.KnowsRole) (hc : c.begins = true) : s'.KnowsRole := by
  cases ho with
  | refused => exact h
  | begunAsSender _ _ _ hset | begunInvited _ _ _ _ hset =>
    have hrole := setRole_isSome hset
    exact fun _ => hrole
  | _ => cases hc

/-- What a call leaves begun had begun before, unless it begins with the call. -/
theorem KnowsRole.perform (h : s.KnowsRole) (hr : s.Ready) (now : UInt64) (c : Call) :
    (s.perform now c).2.KnowsRole := by
  cases hc : c.begins with
  | true => exact (perform_outcome rfl).knowsRole h hc
  | false =>
    intro hst
    have hrole := (s.perform_keepsRole now hc).resolve_left hst
    have hshifts := s.perform_shifts now c
    generalize (s.perform now c).2 = s' at hst hrole hshifts ⊢
    rw [hrole]
    refine h fun e => ?_
    cases hshifts with
    | stays hsame => exact hst (hsame.trans e)
    | begins hbegins => cases hc.symm.trans hbegins
    | climbs hbegun =>
      rcases hbegun with hp | ⟨t, ht⟩
      · exact (isInProgress_iff.1 hp).1 e
      · cases (hr e).2.symm.trans ht
    | cleared => exact hst rfl

/-- What is read from a snapshot knows its role. -/
theorem ofSnapshot_knowsRole {bytes : Bytes} (h : ofSnapshot bytes = .ok s) : s.KnowsRole := by
  intro hst
  have htakes := lawful.streams.takes_of_decode (ofSnapshot_eq_ok.1 h)
  have hadmitted : s.Admitted := (lawful.fits_of_takes htakes).admitted
  exact hadmitted.role (Nat.pos_of_ne_zero fun e => hst (Status.rank_inj e))

end Session

/-! ### Programs -/

namespace Node

variable {α β : Type} {c : Command} {on : Option Slot}

/-- Only sessions that know their role are put into a slot. -/
def Request.IsCast : Request → Prop
  | .step (.install s _) => s.KnowsRole
  | _ => True

/-- Whatever it hears, the program installs only sessions that know their role. -/
def Casts : Program interface α → Prop
  | .done _ => True
  | .ask q next => q.IsCast ∧ ∀ a, Request.Heard False q a → Casts (next a)

theorem Casts.bind {p : Program interface α} {f : α → Program interface β} (hp : Casts p)
    (hf : ∀ a, Casts (f a)) : Casts (p.bind f) := by
  induction p with
  | done a => exact hf a
  | ask q next ih => exact ⟨hp.1, fun a ha => ih a (hp.2 a ha)⟩

variable {x : Running α} {f : α → Running β}

theorem casts_bind (hx : Casts x.run) (hf : ∀ a, Casts (f a).run) : Casts (x >>= f).run := by
  refine hx.bind fun r => ?_
  cases r with
  | error e => trivial
  | ok a => exact hf a

theorem casts_orFail {r : Except Error α} (h : ∀ a, r = .ok a → Casts (f a).run) :
    Casts (Running.orFail r >>= f).run := by
  cases r with
  | error e => trivial
  | ok a => exact h a rfl

theorem casts_store (q : Store.Request) : Casts (Running.store q).run :=
  ⟨trivial, fun _ _ => trivial⟩

/-- A command other than a restart installs nothing. -/
theorem Within.casts {p : Program interface α} (h : Within False c on p) (hc : c ≠ .restore) :
    Casts p := by
  induction p with
  | done a => trivial
  | ask q next ih =>
    refine ⟨?_, fun a ha => ih a (h.2 a ha)⟩
    cases q with
    | step q =>
      cases q with
      | install => exact absurd h.1 hc
      | _ => trivial
    | _ => trivial

/-- Making way is the same in a restart as in any other command. -/
theorem casts_evict (e : Option Eviction) : Casts (evict e).run :=
  have hsweep : Within False .sweep none (evict e).run := within_evict rfl e
  hsweep.casts (by simp)

theorem casts_restoreFrom (ids : List SessionId) (restored : Option SessionId) :
    Casts (restoreFrom ids restored).run := by
  induction ids generalizing restored with
  | nil => trivial
  | cons id ids ih =>
    refine casts_bind (casts_store _) fun found => ?_
    rcases found with _ | bytes
    · exact ih restored
    refine casts_orFail fun s hs => ?_
    split
    · exact casts_bind (casts_store _) fun _ => ih restored
    · split
      · exact ih restored
      · have hclock : Casts (Running.ask .clock).run := ⟨trivial, fun _ _ => trivial⟩
        refine casts_bind hclock fun now => ?_
        have hinstall : Casts (Running.step (.install s now) rfl).run :=
          ⟨Session.ofSnapshot_knowsRole hs, fun _ _ => trivial⟩
        refine casts_bind hinstall fun out => ?_
        exact casts_bind (casts_evict out.2) fun _ => ih _

/-- Every command installs only sessions that know their role. -/
theorem program_casts (config : Config) (c : Command) : Casts (c.program config) := by
  by_cases hc : c = .restore
  · subst hc
    refine casts_bind (casts_store .list) fun ids => ?_
    exact casts_bind (casts_restoreFrom ids none) fun _ => trivial
  · exact (program_within False config c).casts hc

variable {n n' : Node} {q : Request} {a : q.Answer} {slot : Slot}

theorem Answers.knowsRole (ha : n.Answers q a n') (hq : q.IsCast)
    (hr : (n.directory.session slot).Ready) (h : (n.directory.session slot).KnowsRole) :
    (n'.directory.session slot).KnowsRole := by
  cases q with
  | step q =>
    obtain ⟨env, -, rfl⟩ := ha
    have halters := perform_alters n env q slot
    generalize (n.perform env q).node.directory.session slot = s at halters
    cases halters with
    | kept => exact h
    | called now | tidied now => exact h.perform hr now _
    | opened id fees now => exact Session.fresh_knowsRole id fees now
    | installed hinstall =>
      subst hinstall
      exact hq
  | clock | freshId | isConnected | store | wallet | ledger =>
    obtain rfl : n' = n := ha
    exact h

end Node

/-! ### Histories -/

namespace Process

variable {w w' : Process} {config : Config}

/-- Every session knows its role, and every command that runs keeps it so. -/
structure Cast (w : Process) : Prop where
  sessions : ∀ slot, (w.session slot).KnowsRole
  jobs : ∀ j ∈ w.jobs, Node.Casts j.rest

theorem start_cast (config : Config) : (start config).Cast :=
  ⟨fun _ => Session.fresh_knowsRole _ _ _, nofun⟩

theorem Cast.tick (h : w.Cast) (hr : w.Settled) (ht : w.Ticks w') : w'.Cast := by
  cases ht with
  | start c =>
    refine ⟨h.sessions, fun j hj => ?_⟩
    rcases List.mem_append.1 hj with hj | hj
    · exact h.jobs j hj
    · rw [List.mem_singleton.1 hj]
      exact Node.program_casts _ c
  | @answer i c q next a n hj ha =>
    have hcasts : Node.Casts (.ask q next) := h.jobs _ (List.mem_of_getElem? hj)
    refine ⟨fun slot => ha.knowsRole hcasts.1 (hr.ready slot) (h.sessions slot), fun j hj' => ?_⟩
    rcases List.mem_or_eq_of_mem_set hj' with hj' | rfl
    · exact h.jobs j hj'
    · exact hcasts.2 a ⟨⟨_, _, ha⟩, nofun⟩

/-- Whatever a node was told, each of its sessions that has begun knows the own role. -/
theorem Reaches.cast (h : (start config).Reaches w) : w.Cast := by
  induction h with
  | refl => exact start_cast config
  | snoc h ht ih => exact ih.tick h.settled ht

end Process

end EscrowMix
