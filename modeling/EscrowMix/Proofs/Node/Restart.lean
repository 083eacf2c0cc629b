import EscrowMix.Proofs.Node.Mirror

/-!
A new node on the store of one that is gone. A session in progress comes back as it was, but for its
connections, its epoch and the time of its last activity; otherwise there is nothing to come back,
and the store is empty in the end. For that, what the commands and the wallet brought must be in
canonical form, since addresses and schedules are checked when they are read.
-/

namespace EscrowMix

open Node (Command Reply Running Request)

/-! ### Sessions that can be read back -/

namespace Session

variable {s : Session} {c : Call} {fair : Prop}

/-- The status and the data agree, and if everything is `fair` the data is canonical. -/
structure Sound (fair : Prop) (s : Session) : Prop where
  consistent : s.Consistent
  canonical : fair → s.IsCanonical

theorem fresh_sound (fair : Prop) (id : SessionId) (fees : FeePolicy) (now : UInt64) :
    (fresh id fees now).Sound fair :=
  ⟨fresh_consistent id fees now, fun _ => fresh_canonical id fees now⟩

theorem Sound.perform (h : s.Sound fair) (now : UInt64) (hm : c.IsMatched)
    (hc : fair → c.IsCanonical) : (s.perform now c).2.Sound fair where
  consistent := perform_consistent h.consistent now c hm
  canonical hfair := perform_canonical (h.canonical hfair) now c (hc hfair)

/-- The time of the last activity does not matter for reading a session back. -/
theorem ofSnapshot_at (h : s.Consistent) (hw : s.IsWritable) (hc : s.IsCanonical) (t : UInt64) :
    ofSnapshot { s with lastActivity := t }.toSnapshot =
      .ok { s.resumed with lastActivity := t } := by
  refine ofSnapshot_toSnapshot (h.bookkept s.log t s.epoch s.needsIntervention) ?_ ?_
  · exact ⟨hw.schedule, hw.constraints, hw.escrow, hw.parties, hw.candidate, hw.deposits, hw.log,
      hw.events⟩
  · exact hc.of_eq rfl rfl fun _ => rfl

end Session

/-- What a command asks for leaves every session sound. -/
theorem Node.Answers.sound {n n' : Node} {q : Request} {a : q.Answer} {c : Command} {fair : Prop}
    (ha : n.Answers q a n') (hq : c.May fair none q) (hc : c ≠ .restore)
    (hcanonical : fair → c.IsCanonical) (h : ∀ slot, (n.directory.session slot).Sound fair)
    (slot : Slot) : (n'.directory.session slot).Sound fair := by
  cases q with
  | step q =>
    obtain ⟨env, -, rfl⟩ := ha
    have halters := perform_alters n env q slot
    generalize (n.perform env q).node.directory.session slot = s at halters
    cases halters with
    | kept => exact h slot
    | @called call now hcall =>
      have hmay : c.MayCall fair none slot call := by
        cases q <;> cases hcall <;> exact hq
      exact (h slot).perform now hmay.matched fun hfair => hmay.canonical hfair (hcanonical hfair)
    | @tidied call now htidy =>
      have hplain : call.IsMatched ∧ call.IsCanonical := by
        cases call <;> first | exact ⟨trivial, trivial⟩ | cases htidy
      exact (h slot).perform now hplain.1 fun _ => hplain.2
    | opened id fees now => exact Session.fresh_sound fair id fees now
    | installed hinstall =>
      subst hinstall
      exact absurd hq hc
  | clock | freshId | isConnected | store | wallet | ledger =>
    obtain rfl : n' = n := ha
    exact h slot

namespace Site

variable {α β : Type} {s s' : Site} {past : List Site} {id : SessionId} {config : Config}
  {fair : Prop} {snapshot : Bytes} {v : Session}

theorem Serves.sound (h : Serves fair config past s) (slot : Slot) :
    (s.session slot).Sound fair := by
  induction h generalizing slot with
  | start => exact Session.fresh_sound _ _ _ _
  | @call past ts s s' c r _ hc hcanonical hv ih =>
    exact hv.keeps (P := fun _ s => ∀ slot, (s.session slot).Sound fair)
      (Node.program_within fair s.node.config c)
      (fun h hq ha => ha.answers.sound hq hc hcanonical h) [] ih slot

/-! ### Restarts -/

/-- The active session. -/
def active (s : Site) : Option Session := s.node.directory.activeSession

/-- A new node, with parameters of its own, on the store of this one. -/
def restarted (s : Site) (config : Config) : Site := ⟨(Process.start config).node, s.store⟩

theorem runs_listed {f : List SessionId → Running β} {r : Except Error β}
    (h : s.Runs (Node.Running.store .list >>= f).run r s') : s.Runs (f s.store.list).run r s' :=
  runs_stored h

theorem runs_loaded {f : Option Bytes → Running β} {r : Except Error β}
    (h : s.Runs (Node.Running.store (.load id) >>= f).run r s') :
    s.Runs (f (s.store.load id)).run r s' :=
  runs_stored h

theorem runs_read {a : α} {f : α → Running β} {r : Except Error β}
    (h : s.Runs (Node.Running.orFail (.ok a) >>= f).run r s') : s.Runs (f a).run r s' :=
  h

/-- From an empty store nothing comes back. -/
theorem runs_restore_nothing {r : Except Error Reply} (h : s.Runs Node.restore.run r s')
    (hs : s.store.entries = []) : r = .ok (.restored none) ∧ s' = s := by
  have hlist : s.store.list = [] := by
    rw [Store.Memory.list, hs]
    rfl
  have h := runs_listed h
  rw [hlist] at h
  exact runs_done h

/-- A node without an active session makes the session the active one. -/
theorem runs_install_free {f : List Outbound → Running β} {r : Except Error β} {now : UInt64}
    (h : s.Runs (Node.Running.step (.install v now) rfl >>= fun out : Slot × Option Eviction =>
      Node.evict out.2 >>= f).run r s') (ha : s.node.directory.active = none) :
    ∃ out, Runs ⟨⟨s.node.config, (s.node.directory.activate v).2⟩, s.store⟩ (f out).run r s' := by
  have hd : s.node.directory.install v now = .ok (((s.node.directory.activate v).1, none),
      (s.node.directory.activate v).2) := by
    rw [Directory.install, Directory.enroll, ha]
  obtain ⟨_, s₁, hinstall, h⟩ := runs_bind h
  obtain ⟨env, hanswer, rfl⟩ := runs_step hinstall
  have hstep : s.node.perform env (.install v now) =
    s.node.enrolled (s.node.directory.install v now) := rfl
  rw [stepped, hstep, hd] at h
  rw [hstep, hd] at hanswer
  subst hanswer
  exact ⟨[], h⟩

/-- What a restart does with the only snapshot in the store. -/
theorem runs_restore_one {r : Except Error Reply} (h : s.Runs Node.restore.run r s')
    (hs : s.store.entries = [(id, snapshot)]) (hv : Session.ofSnapshot snapshot = .ok v)
    (ha : s.node.directory.active = none) :
    (v.isInProgress = true ∧ r = .ok (.restored (some id)) ∧
      s' = ⟨⟨s.node.config, (s.node.directory.activate v).2⟩, s.store⟩) ∨
    (v.isInProgress = false ∧ r = .ok (.restored none) ∧
      s' = ⟨s.node, s.store.remove id⟩) := by
  have hlist : s.store.list = [id] := by
    rw [Store.Memory.list, hs]
    rfl
  have hload : s.store.load id = some snapshot := by simp [Store.Memory.load, hs]
  have h := runs_listed h
  rw [hlist] at h
  obtain ⟨restored, s₁, hfrom, h⟩ := runs_bind h
  have hfrom := runs_loaded hfrom
  rw [hload] at hfrom
  dsimp only at hfrom
  rw [hv] at hfrom
  have hfrom := runs_read hfrom
  cases hp : v.isInProgress with
  | false =>
    rw [hp] at hfrom
    obtain ⟨rfl, rfl⟩ := runs_done (runs_stored hfrom)
    exact .inr ⟨rfl, runs_done h⟩
  | true =>
    rw [hp] at hfrom
    obtain ⟨now, s₂, hclock, hfrom⟩ := runs_asked hfrom
    obtain rfl : s = s₂ := hclock.symm
    obtain ⟨out, hfrom⟩ := runs_install_free hfrom ha
    obtain ⟨rfl, rfl⟩ := runs_done hfrom
    exact .inl ⟨rfl, runs_done h⟩

/-! ### What is stored and what comes back -/

/-- The store holds the snapshot of the active session and nothing else; if no session has begun, it
is empty. The time of the last activity may be that of an earlier state. -/
structure Stored (past : List Site) (s : Site) : Prop where
  begun : ∀ v, s.active = some v → v.status ≠ .notBegun → ∃ s₀ ∈ past, ∃ v₀,
    s₀.node.directory.active = s.node.directory.active ∧ s₀.active = some v₀ ∧
      s.store.entries = [(v.id, { v with lastActivity := v₀.lastActivity }.toSnapshot)]
  blank : (∀ v, s.active = some v → v.status = .notBegun) → s.store.entries = []

/-- What a restart on the store of `s` answers and leaves: a session in progress is the active one
again, and if there is none then the store is empty in the end. -/
structure Resumes (s : Site) (r : Except Error Reply) (s' : Site) : Prop where
  resumed : ∀ v, s.active = some v → v.isInProgress = true →
    r = .ok (.restored (some v.id)) ∧ v.pending = none ∧ s'.store = s.store ∧
      s'.node.directory.activeId = some v.id ∧
      ∃ t, s'.active = some { v.resumed with lastActivity := t }
  ended : (∀ v, s.active = some v → v.isInProgress = false) →
    r = .ok (.restored none) ∧ s'.store.entries = [] ∧ s'.active = none

theorem active_eq {slot : Slot} (h : s.node.directory.active = some (id, slot)) :
    s.active = some (s.session slot) :=
  congrArg (Option.map fun entry : SessionId × Slot => s.node.directory.session entry.2) h

theorem active_eq_none (h : s.node.directory.active = none) : s.active = none :=
  congrArg (Option.map fun entry : SessionId × Slot => s.node.directory.session entry.2) h

theorem Reflects.stored (h : Reflects past s) (hn : s.node.directory.Named) : s.Stored past := by
  cases h with
  | idle ha he =>
    refine ⟨fun v hv => ?_, fun _ => he⟩
    cases (active_eq_none ha).symm.trans hv
  | @one id slot h =>
    have hactive := active_eq h.active
    refine ⟨fun v hv hst => ?_, fun hblank => h.blank (hblank _ hactive)⟩
    cases hactive.symm.trans hv
    obtain ⟨s₀, hmem, ha₀, he⟩ := h.kept hst
    obtain ⟨-, rfl⟩ := hn id slot h.active
    exact ⟨s₀, hmem, _, ha₀.trans h.active.symm, active_eq ha₀, he⟩

/-- A restart from an empty store, where no session was in progress. -/
theorem resumes_nothing {r : Except Error Reply} (he : s.store.entries = [])
    (hover : ∀ v, s.active = some v → v.isInProgress = false)
    (h : (s.restarted config).Runs (Command.restore.program config) r s') : s.Resumes r s' := by
  obtain ⟨rfl, rfl⟩ := runs_restore_nothing h he
  refine ⟨fun v hv hp => ?_, fun _ => ⟨rfl, he, rfl⟩⟩
  cases (hover v hv).symm.trans hp

/-- A restart from the snapshot of the session that was active. -/
theorem Mirrors.resumes {slot : Slot} {r : Except Error Reply} (hm : Mirrors past s id slot)
    (hn : s.node.directory.Named) (hbegun : (s.session slot).status ≠ .notBegun)
    (hc : (s.session slot).Consistent) (hcanonical : (s.session slot).IsCanonical)
    (hw : (s.session slot).IsWritable) (hp : (s.session slot).pending = none)
    (h : (s.restarted config).Runs (Command.restore.program config) r s') : s.Resumes r s' := by
  obtain ⟨s₀, -, -, he⟩ := hm.kept hbegun
  have hread := Session.ofSnapshot_at hc hw hcanonical (s₀.session slot).lastActivity
  have hactive := active_eq hm.active
  have hempty := hm.only.remove
  obtain ⟨-, rfl⟩ := hn id slot hm.active
  rcases runs_restore_one h he hread rfl with ⟨hprogress, rfl, rfl⟩ | ⟨hover, rfl, rfl⟩
  · refine ⟨fun v hv _ => ?_, fun hover => ?_⟩
    · cases hactive.symm.trans hv
      exact ⟨rfl, hp, rfl, rfl, _, rfl⟩
    · cases (hover _ hactive).symm.trans hprogress
  · refine ⟨fun v hv hprogress => ?_, fun _ => ⟨rfl, hempty, rfl⟩⟩
    cases hactive.symm.trans hv
    cases hover.symm.trans hprogress

/-- Between two commands the store mirrors the node, and from it a new node resumes the session in
progress, with whatever parameters, if all addresses and terms are in canonical form and four bytes
hold the length of every sequence in the session. -/
theorem Serves.stored_and_resumed (h : Serves fair config past s) :
    s.Stored past ∧ (fair → (∀ v, s.active = some v → v.IsWritable) → ∀ config' : Config,
      (∃ r s', (s.restarted config').Runs (Command.restore.program config') r s') ∧
        ∀ r s', (s.restarted config').Runs (Command.restore.program config') r s' →
          s.Resumes r s') := by
  refine ⟨h.reflects.stored h.named, fun hfair hwritable config' => ⟨?_, fun r s' hruns => ?_⟩⟩
  · exact ⟨_, _, runs_run SigningMixer.circumstances _ _⟩
  · cases h.reflects with
    | idle ha he =>
      refine resumes_nothing he (fun v hv => ?_) hruns
      cases (active_eq_none ha).symm.trans hv
    | @one id slot hm =>
      have hactive := active_eq hm.active
      by_cases hst : (s.session slot).status = .notBegun
      · refine resumes_nothing (hm.blank hst) (fun v hv => ?_) hruns
        cases hactive.symm.trans hv
        exact congrArg Status.isInProgress hst
      · have hsound := h.sound slot
        exact hm.resumes h.named hst hsound.consistent (hsound.canonical hfair)
          (hwritable _ hactive) (h.pending slot) hruns

/-! ### Commands in fixed circumstances -/

theorem via_run (x : Circumstances) (hx : fair → ∀ (q : Request) s, q.IsFair (answerIn x q s).1)
    (p : Program Node.interface α) (s : Site) :
    ∃ ts, Via fair s p ts (p.run (answerIn x) s).1 (p.run (answerIn x) s).2 := by
  induction p generalizing s with
  | done a => exact ⟨[], .done⟩
  | ask q next ih =>
    obtain ⟨ts, h⟩ := ih (answerIn x q s).1 (answerIn x q s).2
    exact ⟨_, .ask (answers_answerIn x q s) (fun hfair => hx hfair q s) h⟩

/-- Commands that are told one after the other. -/
theorem Serves.told (h : Serves fair config past s) (x : Circumstances)
    (hx : fair → ∀ (q : Request) s, q.IsFair (answerIn x q s).1) {cs : List Command}
    (hcs : ∀ c ∈ cs, c ≠ .restore ∧ c.IsCanonical) :
    ∃ past', Serves fair config past' (told x s cs) := by
  induction cs generalizing past s with
  | nil => exact ⟨past, h⟩
  | cons c cs ih =>
    obtain ⟨hc, hcanonical⟩ := hcs c List.mem_cons_self
    obtain ⟨ts, hv⟩ := via_run x hx (c.program s.node.config) s
    exact ih (h.call hc (fun _ => hcanonical) hv) fun c' hc' => hcs c' (List.mem_cons_of_mem _ hc')

end Site

/-- A wallet that refuses everything derives no escrow in another form. -/
theorem LockedWallet.fair (q : Request) (s : Site) : q.IsFair (Site.answerIn locked q s).1 := by
  cases q with
  | wallet q =>
    cases q with
    | deriveMultisig => exact fun m hm => nomatch hm
    | _ => trivial
  | _ => trivial

open LockedWallet in
theorem Site.Serves.keyed_stored_and_resumed :
    (keyed.session 0).status = .pubKey ∧ keyed.active = some (keyed.session 0) ∧
      ∃ past, Serves True .standard past keyed ∧ keyed.Stored past ∧
        (∃ r s', (keyed.restarted .standard).Runs (Command.restore.program .standard) r s') ∧
          ∀ r s', (keyed.restarted .standard).Runs (Command.restore.program .standard) r s' →
            keyed.Resumes r s' := by
  have hsession : (keyed.session 0).status = .pubKey ∧ keyed.active = some (keyed.session 0) ∧
      (keyed.session 0).IsWritable := by decide +kernel
  obtain ⟨hst, hactive, hwritable⟩ := hsession
  obtain ⟨past, h⟩ : ∃ past, Serves True .standard past keyed := by
    refine Serves.start.told locked (fun _ => LockedWallet.fair) ?_
    simp only [List.forall_mem_cons]
    exact ⟨⟨nofun, by decide, by decide⟩, ⟨nofun, trivial⟩,
      ⟨nofun, (by decide : Address.Canonical ⟨"mixer"⟩)⟩,
      ⟨nofun, (by decide : Address.Canonical ⟨"sender"⟩)⟩,
      ⟨nofun, (by decide : Address.Canonical ⟨"guarantor"⟩)⟩, nofun⟩
  obtain ⟨hstored, hresumed⟩ := h.stored_and_resumed
  refine ⟨hst, hactive, past, h, hstored, hresumed trivial (fun v hv => ?_) .standard⟩
  rw [← Option.some.inj (hactive.symm.trans hv)]
  exact hwritable

end EscrowMix
