import EscrowMix.Proofs.Node.Admission
import EscrowMix.Proofs.Node.Conduct

/-!
The store of a node that is told one command after the other. After every command it holds the
snapshot of the active session and nothing else, and nothing at all if no session has begun: every
call on a session is handed to the store or changes nothing that a snapshot holds, apart from the
time of the last activity; and a session that gives way is forgotten.
-/

namespace EscrowMix

open Node (Command Reply Request Running Surroundings Step Within isOwnAccount)

/-! ### What a snapshot does not show -/

namespace Session

variable {s s' : Session} {now : UInt64} {c : Call}

/-- The session is the same up to the time of the last activity and what is never written. -/
def Aside (s s' : Session) : Prop :=
  { s'.resumed with lastActivity := s.lastActivity } = s.resumed

theorem Aside.status (h : Aside s s') : s'.status = s.status := by
  have hst := congrArg Session.status h
  exact hst

theorem Aside.toSnapshot (h : Aside s s') (t : UInt64) :
    { s' with lastActivity := t }.toSnapshot = { s with lastActivity := t }.toSnapshot := by
  have hresumed : { s' with lastActivity := t }.resumed = { s with lastActivity := t }.resumed :=
    congrArg (fun u : Session => { u with lastActivity := t }) h
  rw [← toSnapshot_resumed, hresumed, toSnapshot_resumed]

/-- A call made from outside on a session that has begun is handed to the store, or changes nothing
that the store keeps. -/
theorem perform_written (s : Session) (now : UInt64) (ha : isOwnAccount c = false)
    (hb : c.begins = false) :
    Node.isSaved c (s.perform now c).1 = true ∨ Aside s (s.perform now c).2 := by
  generalize hs : s.perform now c = out
  obtain ⟨answer, s'⟩ := out
  cases perform_outcome hs with
  | refused | ownKeyAgain | peerKeyAgain | claimedMultisig | claimedVerification | claimedSignature
  | unfit | claimedCommit | returned | ignored => exact .inr rfl
  | @peerSet _ role peer =>
    refine .inr ?_
    have hpeer : (s.parties.setPeer role peer).disconnected = s.parties.disconnected := by
      cases role <;> rfl
    rw [Aside, resumed, resumed, hpeer]
  | begunAsSender | begunInvited => cases hb
  | forced | flagged | flaggedBefore => cases ha
  | _ => exact .inl rfl

end Session

namespace Store.Memory

variable {m : Memory} {id : SessionId}

/-- Nothing is kept under another identifier. -/
def Only (m : Memory) (id : SessionId) : Prop := m.entries = [] ∨ ∃ b, m.entries = [(id, b)]

theorem Only.save (h : m.Only id) (b : Bytes) : (m.save id b).entries = [(id, b)] := by
  rcases h with h | ⟨b', h⟩ <;> simp [Memory.save, h, insertEntry]

theorem Only.remove (h : m.Only id) : (m.remove id).entries = [] := by
  rcases h with h | ⟨b', h⟩ <;> simp [Memory.remove, h]

end Store.Memory

namespace Site

variable {α β : Type} {s s₁ s' : Site} {past past' ts : List Site} {id : SessionId} {slot : Slot}
  {c : Session.Call} {fair : Prop}

/-! ### One session and its snapshot -/

/-- The store holds the snapshot of the active session, if that has begun, and nothing else. The time
of the last activity may be that of an earlier state. -/
structure Mirrors (past : List Site) (s : Site) (id : SessionId) (slot : Slot) : Prop where
  active : s.node.directory.active = some (id, slot)
  blank : (s.session slot).status = .notBegun → s.store.entries = []
  kept : (s.session slot).status ≠ .notBegun → ∃ s₀ ∈ past,
    s₀.node.directory.active = some (id, slot) ∧ s.store.entries =
      [(id, { s.session slot with lastActivity := (s₀.session slot).lastActivity }.toSnapshot)]

theorem Mirrors.later (h : Mirrors past s id slot) (hsub : past ⊆ past') :
    Mirrors past' s id slot :=
  ⟨h.active, h.blank, fun hst => by
    obtain ⟨s₀, hmem, hs₀⟩ := h.kept hst
    exact ⟨s₀, hsub hmem, hs₀⟩⟩

theorem Mirrors.only (h : Mirrors past s id slot) : s.store.Only id := by
  by_cases hst : (s.session slot).status = .notBegun
  · exact .inl (h.blank hst)
  · obtain ⟨_, -, -, he⟩ := h.kept hst
    exact .inr ⟨_, he⟩

/-- A session that was just handed to the store. -/
theorem mirrors_persisted {v : Session} (ha : s.node.directory.active = some (id, slot))
    (hv : s.session slot = v) (hid : v.id = id) {m : Store.Memory} (hm : m.Only id)
    (hs : s.store = (m.perform (Node.persist v)).2) (hmem : s ∈ past) : Mirrors past s id slot := by
  subst hid
  refine ⟨ha, fun hst => ?_, fun hst => ⟨s, hmem, ha, ?_⟩⟩
  · rw [hv] at hst
    rw [hs, Node.persist, if_pos hst]
    exact hm.remove
  · rw [hv] at hst ⊢
    rw [hs, Node.persist, if_neg hst]
    exact hm.save _

/-- Every call from outside on a session leaves the store up to date. -/
theorem Mirrors.call (h : Mirrors past s id slot) (hn : s.node.directory.Named)
    (ha : isOwnAccount c = false) (hb : c.begins = false) (env : Surroundings)
    (time : Option UInt64) : Mirrors (past ++ [s.stepped env (.call slot time c)])
      (s.stepped env (.call slot time c)) id slot := by
  obtain ⟨hlt, hid⟩ := hn id slot h.active
  have hwritten := (s.session slot).perform_written (time.getD env.now) ha hb
  have hvid := (s.session slot).perform_id (time.getD env.now) c
  generalize hs : (s.session slot).perform (time.getD env.now) c = out at hwritten hvid
  obtain ⟨answer, v⟩ := out
  rw [stepped_call time hs]
  have hv : (s.node.put slot v).directory.session slot = v := Directory.session_update_self hlt
  cases hsaved : Node.isSaved c answer with
  | true =>
    exact mirrors_persisted h.active hv (hvid.trans hid) h.only rfl
      (List.mem_append_right _ List.mem_cons_self)
  | false =>
    have haside : Session.Aside (s.session slot) v :=
      hwritten.resolve_left fun ht => nomatch hsaved.symm.trans ht
    refine ⟨h.active, fun hst => ?_, fun hst => ?_⟩
    · have hst : ((s.node.put slot v).directory.session slot).status = .notBegun := hst
      rw [hv, haside.status] at hst
      exact h.blank hst
    · have hst : ((s.node.put slot v).directory.session slot).status ≠ .notBegun := hst
      rw [hv, haside.status] at hst
      obtain ⟨s₀, hmem, ha₀, he⟩ := h.kept hst
      refine ⟨s₀, List.mem_append_left _ hmem, ha₀, ?_⟩
      rw [session, hv, haside.toSnapshot]
      exact he

/-- Whatever a command that stays with the active session asks for leaves the store up to date. -/
theorem Mirrors.ask {c : Command} {q : Request} {a : q.Answer} (h : Mirrors past s id slot)
    (hn : s.node.directory.Named) (hc : c.places = false) (hq : c.May fair (some slot) q)
    (ha : s.Answers q a s₁) : Mirrors (past ++ [s₁]) s₁ id slot := by
  have hsame : Mirrors (past ++ [s]) s id slot := h.later (List.subset_append_left _ _)
  cases q with
  | clock | freshId | isConnected | wallet | ledger =>
    obtain rfl : s₁ = s := ha
    exact hsame
  | store q => cases hc.symm.trans hq
  | step q =>
    obtain ⟨env, -, rfl⟩ := ha
    cases q with
    | lookup | reachable | view => exact hsame
    | enroll | drop | sweep | abandon | save => cases hc.symm.trans hq
    | install =>
      obtain rfl : c = .restore := hq
      cases hc
    | call slot' time call =>
      obtain rfl : slot' = slot := hq.place slot rfl
      exact h.call hn hq.account (hq.begins hc) env time
    | announce slot' call =>
      obtain rfl : slot' = slot := hq.place slot rfl
      rcases s.stepped_announce env slot' call with ⟨_, -, hs⟩ | ⟨_, -, hs⟩
      · rw [hs]
        exact hsame
      · rw [hs]
        exact h.call hn hq.account (hq.begins hc) env none

/-! ### Complete commands -/

/-- A program runs with nothing in between, through these states. -/
inductive Via {α : Type} (fair : Prop) :
    Site → Program Node.interface α → List Site → α → Site → Prop
  | done {s : Site} {a : α} : Via fair s (.done a) [] a s
  | ask {s s₁ s' : Site} {q : Request} {next : q.Answer → Program Node.interface α} {a : q.Answer}
      {ts : List Site} {r : α} (ha : s.Answers q a s₁) (hf : fair → q.IsFair a)
      (h : Via fair s₁ (next a) ts r s') : Via fair s (.ask q next) (s₁ :: ts) r s'

/-- A node with an empty store is told one command after the other, but no restart. If everything
about it is `fair`, the commands and the wallet bring data in canonical form only. -/
inductive Serves (fair : Prop) (config : Config) : List Site → Site → Prop
  | start : Serves fair config [⟨(Process.start config).node, .empty⟩]
      ⟨(Process.start config).node, .empty⟩
  | call {past ts : List Site} {s s' : Site} {c : Command} {r : Except Error Reply}
      (h : Serves fair config past s) (hc : c ≠ .restore) (hcanonical : fair → c.IsCanonical)
      (hv : Via fair s (c.program s.node.config) ts r s') : Serves fair config (past ++ ts) s'

theorem Via.runs {p : Program Node.interface α} {r : α} (h : Via fair s p ts r s') :
    s.Runs p r s' := by
  induction h with
  | done => exact .done
  | ask ha _ _ ih => exact .ask ha ih

theorem Via.last {p : Program Node.interface α} {r : α} (h : Via fair s p ts r s') :
    s' ∈ s :: ts := by
  induction h with
  | done => exact List.mem_cons_self
  | ask _ _ _ ih => exact List.mem_cons_of_mem _ ih

/-- What every allowed request keeps, a run keeps. -/
theorem Via.keeps {p : Program Node.interface α} {r : α} {c : Command} {on : Option Slot}
    {P : List Site → Site → Prop} (h : Via fair s p ts r s') (hp : Within fair c on p)
    (hask : ∀ {past s q} {a : q.Answer} {s₁}, P past s → c.May fair on q →
      s.Answers q a s₁ → P (past ++ [s₁]) s₁) (past : List Site) (hs : P past s) :
    P (past ++ ts) s' := by
  induction h generalizing past with
  | done =>
    rw [List.append_nil]
    exact hs
  | @ask s s₁ s' q next a ts r ha hf _ ih =>
    rw [List.append_cons]
    exact ih (hp.2 a ⟨⟨_, _, ha.answers⟩, hf⟩) _ (hask hs hp.1 ha)

/-- A program that looks a session up stays with that, or ends at once. -/
theorem Via.lookup {id : SessionId} {f : Slot → Running β} {r : Except Error β}
    (h : Via fair s (Node.Running.lookup id >>= f).run ts r s') :
    (ts = [s] ∧ s' = s) ∨ ∃ slot ts', s.node.directory.active = some (id, slot) ∧ ts = s :: ts' ∧
      Via fair s (f slot).run ts' r s' := by
  cases h with
  | ask ha _ h =>
    obtain ⟨env, rfl, rfl⟩ := ha
    have h : Via fair s (Node.Running.orFail (s.node.directory.lookup id) >>= f).run _ r s' := h
    cases hl : s.node.directory.lookup id with
    | error e =>
      rw [hl] at h
      cases h
      exact .inl ⟨rfl, rfl⟩
    | ok slot =>
      rw [hl] at h
      exact .inr ⟨slot, _, Directory.lookup_eq_ok.1 hl, rfl, h⟩

/-! ### Between two commands -/

/-- What a node and its store hold between two commands. -/
inductive Reflects (past : List Site) (s : Site) : Prop
  | idle (ha : s.node.directory.active = none) (he : s.store.entries = [])
  | one {id : SessionId} {slot : Slot} (h : s.Mirrors past id slot)

theorem Reflects.later (h : Reflects past s) (hsub : past ⊆ past') : Reflects past' s := by
  cases h with
  | idle ha he => exact .idle ha he
  | one h => exact .one (h.later hsub)

/-- Where a session can begin, the store is empty once whoever was active is forgotten. -/
theorem Reflects.forgot (h : Reflects past s) {now : UInt64} {evicted : Option Eviction}
    {d : Directory} (henroll : s.node.directory.getOrCreate id now = .ok ((slot, evicted), d))
    (hst : (d.session slot).status = .notBegun) : (forgot s.store evicted).entries = [] := by
  have hevicted := Directory.getOrCreate_evicted henroll
  cases h with
  | idle ha he =>
    have hid : s.node.directory.activeId = none := congrArg (Option.map Prod.fst) ha
    rw [hid, if_neg nofun, Option.map_eq_none_iff] at hevicted
    rw [hevicted]
    exact he
  | @one id' slot' h =>
    have hid : s.node.directory.activeId = some id' := congrArg (Option.map Prod.fst) h.active
    rw [hid] at hevicted
    by_cases heq : some id' = some id
    · cases heq
      cases (Directory.getOrCreate_of_active h.active).symm.trans henroll
      exact h.blank hst
    · rw [if_neg heq, Option.map_eq_some_iff] at hevicted
      obtain ⟨e, rfl, rfl⟩ := hevicted
      exact h.only.remove

/-- A session that begins is the only one in the store. -/
theorem Begins.reflects {now : UInt64} {v : Session} (h : s.Begins id now c slot v s')
    (hr : Reflects past s) (hn : s.node.directory.Named) (hc : c.begins = true)
    (hmem : s' ∈ past') : Reflects past' s' := by
  obtain ⟨ha, hsession, hid⟩ := h.placed hn
  obtain ⟨henroll, hbegin⟩ := h
  have hempty := hr.forgot henroll (Session.notBegun_of_begins hc hbegin)
  exact .one (mirrors_persisted ha hsession hid (.inl hempty) rfl hmem)

/-- A session that was reset is not in the store any more. -/
theorem Mirrors.cleared (h : Mirrors past s id slot) (hn : s.node.directory.Named)
    {env : Surroundings} {u : Unit}
    (hok : ((s.session slot).perform env.now (.reset true)).1 = .ok u) :
    (s.stepped env (.call slot none (.reset true))).store.entries = [] := by
  refine (h.call hn rfl rfl env none).blank ?_
  generalize hs : (s.session slot).perform env.now (.reset true) = out at hok
  obtain ⟨answer, v⟩ := out
  obtain rfl : answer = .ok u := hok
  have hv : (s.stepped env (.call slot none (.reset true))).session slot = v := by
    rw [stepped_call none hs]
    exact Directory.session_update_self (hn id slot h.active).1
  obtain ⟨-, rfl⟩ := Session.reset_ok (Session.orKeepUnit_eq_ok.1 hs)
  rw [hv]
  rfl

/-- A session that was reset and is dropped. -/
theorem Mirrors.dropped (h : Mirrors past s id slot) (hn : s.node.directory.Named)
    {env env' : Surroundings} {u : Unit}
    (hok : ((s.session slot).perform env.now (.reset true)).1 = .ok u) :
    Reflects past' ((s.stepped env (.call slot none (.reset true))).stepped env' (.drop id)) := by
  have ha := (h.call (c := .reset true) hn rfl rfl env none).active
  have hempty := h.cleared hn hok
  generalize s.stepped env (.call slot none (.reset true)) = s₁ at ha hempty
  rcases s₁.node.directory.drop_cases id with ⟨-, hd⟩ | ⟨hne, -⟩
  · refine .idle ?_ hempty
    show (s₁.node.directory.drop id).2.active = none
    rw [hd]
    rfl
  · exact absurd (congrArg (Option.map Prod.fst) ha) hne

theorem Reflects.mirrors (h : Reflects past s) (ha : s.node.directory.active = some (id, slot)) :
    Mirrors past s id slot := by
  cases h with
  | idle hnone => cases hnone.symm.trans ha
  | one h =>
    cases h.active.symm.trans ha
    exact h

theorem reflects_cancel {reply : Reply} (h : s.Runs (Node.cancel id).run (.ok reply) s')
    (hr : Reflects past s) (hn : s.node.directory.Named) : Reflects past' s' := by
  obtain ⟨slot, ha, h⟩ := runs_lookup_ok h
  obtain ⟨targets, s₁, habandon, h⟩ := runs_bind_ok h
  obtain ⟨env, htargets, rfl⟩ := runs_step habandon
  obtain ⟨_, s₂, ⟨env', -, rfl⟩, h⟩ := runs_asked h
  obtain ⟨-, rfl⟩ := runs_done h
  obtain ⟨u, hok, -⟩ := map_eq_ok.1 htargets.symm
  exact (hr.mirrors ha).dropped hn hok

theorem reflects_onCancel {reply : Reply} (h : s.Runs (Node.onCancel id).run (.ok reply) s')
    (hr : Reflects past s) (hn : s.node.directory.Named) : Reflects past' s' := by
  obtain ⟨slot, ha, h⟩ := runs_lookup_ok h
  obtain ⟨u, s₁, hcall, h⟩ := runs_bind_ok h
  obtain ⟨env, hok, rfl⟩ := runs_call hcall
  obtain ⟨_, s₂, ⟨env', -, rfl⟩, h⟩ := runs_asked h
  obtain ⟨-, rfl⟩ := runs_done h
  exact (hr.mirrors ha).dropped hn hok.symm

/-- A sweep forgets what it resets, and hands over what it flags. -/
theorem reflects_sweep {r : Except Error Reply} (h : s.Runs Node.sweep.run r s')
    (hr : Reflects past s) (hn : s.node.directory.Named) (hsub : past ⊆ past') (hmem : s' ∈ past') :
    Reflects past' s' := by
  obtain ⟨now, s₁, hs, hsweep⟩ := runs_asked h
  obtain rfl : s = s₁ := hs.symm
  obtain ⟨outcomes, _, ⟨env, houtcomes, rfl⟩, hrun⟩ := runs_asked hsweep
  obtain ⟨recorded, s₂, hrecord, hdone⟩ := runs_bind hrun
  obtain rfl : s' = s₂ := by
    cases recorded <;> exact (runs_done hdone).2
  have hswept : s.stepped env (.sweep now) =
      ⟨⟨s.node.config, (s.node.directory.sweep now s.node.config.maxIdleSecs none).2⟩, s.store⟩ :=
    rfl
  have houtcomes : outcomes =
      (s.node.directory.sweep now s.node.config.maxIdleSecs none).1 := houtcomes
  rw [hswept] at hrecord
  rcases s.node.directory.sweep_told now s.node.config.maxIdleSecs none with
    hd | ⟨id, slot, ha, -, ⟨v, -, hd⟩ | hd⟩
  · rw [hd] at houtcomes hrecord
    subst houtcomes
    obtain ⟨-, rfl⟩ := runs_done hrecord
    exact hr.later hsub
  · rw [hd] at houtcomes hrecord
    subst houtcomes
    obtain ⟨_, _, ⟨-, rfl⟩, hdone⟩ := runs_asked hrecord
    obtain ⟨-, rfl⟩ := runs_done hdone
    exact .idle rfl (hr.mirrors ha).only.remove
  · rw [hd] at houtcomes hrecord
    subst houtcomes
    have hfound : (s.node.directory.update slot ((s.node.directory.session slot).flag now)).lookup
        id = .ok slot := Directory.lookup_eq_ok.2 ha
    obtain ⟨found, _, ⟨_, hlookup, rfl⟩, hrecord⟩ := runs_asked hrecord
    obtain rfl : found = .ok slot := hlookup.trans hfound
    obtain ⟨_, _, ⟨_, -, rfl⟩, hdone⟩ := runs_asked hrecord
    obtain ⟨-, rfl⟩ := runs_done hdone
    obtain ⟨hlt, hid⟩ := hn id slot ha
    refine .one (mirrors_persisted ha rfl ?_ (hr.mirrors ha).only rfl hmem)
    exact ((hn.perform slot now .flag) id slot ha).2

/-- Every complete command but a restart keeps the store up to date. -/
theorem Via.reflects {c : Command} {r : Except Error Reply}
    (h : Via fair s (c.program s.node.config) ts r s') (hc : c ≠ .restore)
    (hready : ∀ slot, (s.session slot).Ready) (hn : s.node.directory.Named) (hs : s ∈ past)
    (hr : Reflects past s) : Reflects (past ++ ts) s' := by
  have hsub : past ⊆ past ++ ts := List.subset_append_left _ _
  have hmem : s' ∈ past ++ ts :=
    (List.mem_cons.1 h.last).elim (fun he => hsub (he ▸ hs)) (List.mem_append_right _)
  by_cases hplaces : c.places = false
  · obtain ⟨id, f, hprogram, hf⟩ := Node.program_lookup fair s.node.config hplaces
    rw [hprogram] at h
    rcases h.lookup with ⟨rfl, rfl⟩ | ⟨slot, ts', ha, rfl, hrun⟩
    · exact hr.later hsub
    · have hmirrors := (hr.mirrors ha).later (List.subset_append_left past [s])
      have hkeeps := hrun.keeps (P := fun past s => s.Mirrors past id slot ∧ s.node.directory.Named)
        (hf slot) (fun h hq ha => ⟨h.1.ask h.2 hplaces hq ha, ha.answers.named h.2⟩) _
        ⟨hmirrors, hn⟩
      rw [List.append_cons]
      exact .one hkeeps.1
  rcases r with e | reply
  · rcases failsTo_program s hready s.node.config hc e s' h.runs with hnoted | rfl
    · cases c <;> first | exact absurd rfl hplaces | cases hnoted
    · exact hr.later hsub
  cases c with
  | beginSend =>
    obtain ⟨_, _, _, _, _, -, hbegins⟩ := runs_beginSend_ok h.runs
    exact hbegins.reflects hr hn rfl hmem
  | onInvite =>
    obtain ⟨_, _, _, hbegins⟩ := runs_onInvite_ok hn h.runs
    exact hbegins.reflects hr hn rfl hmem
  | cancel => exact reflects_cancel h.runs hr hn
  | onCancel => exact reflects_onCancel h.runs hr hn
  | sweep => exact reflects_sweep h.runs hr hn hsub hmem
  | restore => exact absurd rfl hc
  | _ => exact absurd rfl hplaces

namespace Serves

variable {config : Config}

/-- The node has come to where it is by a history of its own. -/
theorem reaches (h : Serves fair config past s) :
    ∃ w, (Process.start config).Reaches w ∧ w.AtRest ∧ w.node = s.node := by
  induction h with
  | start => exact ⟨_, .refl, nofun, rfl⟩
  | @call past ts s s' c r h hc _ hv ih =>
    obtain ⟨w, hw, hrest, hnode⟩ := ih
    have hruns : Runs ⟨w.node, s.store⟩ (c.program w.node.config) r s' := by
      rw [hnode]
      exact hv.runs
    exact ⟨_, hw.run hruns, hrest.run _ c r, rfl⟩

theorem mem_past (h : Serves fair config past s) : s ∈ past := by
  induction h with
  | start => exact List.mem_cons_self
  | call _ _ _ hv ih =>
    rcases List.mem_cons.1 hv.last with rfl | hmem
    · exact List.mem_append_left _ ih
    · exact List.mem_append_right _ hmem

theorem named (h : Serves fair config past s) : s.node.directory.Named := by
  obtain ⟨w, hw, -, hnode⟩ := h.reaches
  exact hnode ▸ hw.named

theorem ready (h : Serves fair config past s) (slot : Slot) : (s.session slot).Ready := by
  obtain ⟨w, hw, -, hnode⟩ := h.reaches
  have hready := hw.settled.ready slot
  rw [Process.session, hnode] at hready
  exact hready

/-- Nothing is outstanding between two commands. -/
theorem pending (h : Serves fair config past s) (slot : Slot) : (s.session slot).pending = none := by
  obtain ⟨w, hw, hrest, hnode⟩ := h.reaches
  have hpending := hw.settled.pending hrest slot
  rw [Process.session, hnode] at hpending
  exact hpending

/-- The store holds the active session, and nothing if there is none. -/
theorem reflects (h : Serves fair config past s) : Reflects past s := by
  induction h with
  | start => exact .idle rfl rfl
  | call h hc _ hv ih => exact hv.reflects hc h.ready h.named h.mem_past ih

end Serves

end Site

end EscrowMix
