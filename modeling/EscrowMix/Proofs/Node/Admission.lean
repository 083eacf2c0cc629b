import EscrowMix.Proofs.Node.Atomicity
import EscrowMix.Proofs.Node.Upkeep
import EscrowMix.Proofs.Session.Snapshot

/-!
How a session begins, from the command to the snapshot in the store, and which terms it begins with.
The Sender's own schedule is checked; one that comes with an invitation only has to name a payout.
So a session can begin whose snapshot will be refused and whose deposits cannot be computed.
-/

namespace EscrowMix

open Node (Command Reply Running Request)

/-! ### Stores -/

namespace Store.Memory

variable {m : Memory} {id : SessionId} {snapshot : Bytes}

theorem find?_insertEntry (id : SessionId) (snapshot : Bytes) (entries : List (SessionId × Bytes)) :
    (insertEntry id snapshot entries).find? (·.1 = id) = some (id, snapshot) := by
  induction entries with
  | nil => simp [insertEntry]
  | cons e es ih =>
    unfold insertEntry
    split
    · simp
    · next hne =>
      split
      · simp
      · rw [List.find?_cons_of_neg (by simpa using hne), ih]

/-- What was saved is loaded. -/
theorem load_save (m : Memory) (id : SessionId) (snapshot : Bytes) :
    (m.save id snapshot).load id = some snapshot := by
  rw [load, save, find?_insertEntry]
  rfl

end Store.Memory

/-! ### Sessions that have just begun -/

namespace Session

variable {s s' : Session} {now : UInt64}

/-- A session that has just begun: its terms are set, and no address is known yet. -/
structure Opened (s : Session) (terms : Schedule) : Prop where
  status : s.status = .reserved
  schedule : s.schedule = terms
  nonempty : terms.isEmpty = false
  address : ∀ role, s.parties.address role = none
  consistent : s.Consistent

theorem beginAsSender_opened (h : s.Untouched) {schedule : Schedule} {constraints : CoinConstraints}
    {mixer guarantor : PeerId}
    (hs : s.perform now (.beginAsSender schedule constraints mixer guarantor) = (.ok (), s')) :
    s'.Opened schedule := by
  have hok := orKeepUnit_eq_ok.1 hs
  obtain ⟨-, hst, he, parties, hset, rfl⟩ := beginAsSender_ok hok
  have hc := h hst
  obtain ⟨-, -, hparties, -, -⟩ := hc.blank hst
  rw [hparties, Registry.setRole_eq_ok rfl] at hset
  subst hset
  exact ⟨rfl, rfl, he, fun role => by cases role <;> rfl, beginAsSender_consistent hc hok⟩

theorem beginInvited_opened (h : s.Untouched) {role : Role} {sender : PeerId} {schedule : Schedule}
    {fees : FeePolicy} {constraints : CoinConstraints}
    (hs : s.perform now (.beginInvited role sender schedule fees constraints) = (.ok (), s')) :
    s'.Opened schedule ∧ s'.fees = fees := by
  have hok := orKeepUnit_eq_ok.1 hs
  obtain ⟨-, hst, -, he, parties, hset, rfl⟩ := beginInvited_ok hok
  have hc := h hst
  obtain ⟨-, -, hparties, -, -⟩ := hc.blank hst
  rw [hparties, Registry.setRole_eq_ok rfl] at hset
  subst hset
  exact ⟨⟨rfl, rfl, he, fun role => by cases role <;> rfl, beginInvited_consistent hc hok⟩, rfl⟩

theorem Opened.begun {schedule : Schedule} (h : s.Opened schedule) : s.status ≠ .notBegun := by
  rw [h.status]
  exact nofun

/-- The snapshot is accepted just when the schedule is. -/
theorem Opened.accepted {schedule : Schedule} (h : s.Opened schedule) (hw : s.IsWritable) :
    (ofSnapshot s.toSnapshot).isOk = true ↔ schedule.IsReadable := by
  have hescrow : s.escrow = none := h.consistent.not_escrowed (by rw [h.status]; decide)
  rw [ofSnapshot_isOk_iff h.consistent hw hescrow h.address, h.schedule]

theorem requiredCoins_isOk_iff (s : Session) :
    (∀ role, ∃ c, s.requiredCoins (some role) = .ok c) ↔
      s.fees.senderSum s.schedule < UInt64.size := by
  rw [← FeePolicy.requiredCoins_isOk_iff]
  exact forall_congr' fun role => exists_congr fun c => mapError_eq_ok

end Session

namespace Site

open Node.Running (ask orFail step call)

variable {α β : Type} {s s₁ s' : Site} {slot : Slot} {c : Session.Call} {id : SessionId}
  {now : UInt64} {v : Session} {b : β} {x : Running α} {f : α → Running β}

/-! ### From the enrolment to the snapshot -/

/-- A session is enrolled, whoever has to make way for it is forgotten, and then it begins and is
handed to the store. -/
inductive Begins (s : Site) (id : SessionId) (now : UInt64) (c : Session.Call) :
    Slot → Session → Site → Prop
  | intro {slot : Slot} {evicted : Option Eviction} {d : Directory} {a : c.Answer} {v : Session}
      (henroll : s.node.directory.getOrCreate id now = .ok ((slot, evicted), d))
      (hbegin : (d.session slot).perform now c = (.ok a, v)) :
      Begins s id now c slot v ⟨⟨s.node.config, d.update slot v⟩,
        ((forgot s.store evicted).perform (Node.persist v)).2⟩

/-- What a call leaves, and what it hands to the store. -/
theorem stepped_call {env : Node.Surroundings} (time : Option UInt64) {answer : Except Error c.Answer}
    (hs : (s.session slot).perform (time.getD env.now) c = (answer, v)) :
    s.stepped env (.call slot time c) = ⟨s.node.put slot v,
      kept s.store (if Node.isSaved c answer then [Node.persist v] else [])⟩ := by
  have hout : s.node.perform env (.call slot time c) =
      ⟨(answer, v), s.node.put slot v, if Node.isSaved c answer then [Node.persist v] else []⟩ :=
    Node.callOn_eq hs
  rw [stepped, hout]

theorem stepped_save (s : Site) (env : Node.Surroundings) (slot : Slot) :
    s.stepped env (.save slot) =
      ⟨s.node, (s.store.perform (Node.persist (s.session slot))).2⟩ :=
  rfl

theorem runs_enroll_ok {evicted : Option Eviction}
    (h : s.Runs (Node.Running.step (.enroll id now) rfl).run (.ok (slot, evicted)) s₁) :
    ∃ d, s.node.directory.getOrCreate id now = .ok ((slot, evicted), d) ∧
      s₁ = ⟨⟨s.node.config, d⟩, s.store⟩ := by
  rcases runs_enroll h with ⟨⟨e, he⟩, -⟩ | ⟨out, d, hd, hout, rfl⟩
  · cases he
  · cases hout
    exact ⟨d, hd, rfl⟩

theorem runs_evict_ok {evicted : Option Eviction} {f : List Outbound → Running β}
    (h : s.Runs (Node.evict evicted >>= f).run (.ok b) s') :
    ∃ out, Runs ⟨s.node, forgot s.store evicted⟩ (f out).run (.ok b) s' := by
  obtain ⟨out, s₁, hevict, h⟩ := runs_bind_ok h
  obtain rfl := runs_evict hevict
  exact ⟨out, h⟩

/-- A call whose answer decides what follows. -/
theorem runs_request_ok {time : Option UInt64} {f : Except Error c.Answer × Session → Running β}
    (h : s.Runs (ask (.step (.call slot time c)) >>= f).run (.ok b) s') :
    ∃ env, (s.stepped env (.call slot time c)).Runs
      (f ((s.session slot).perform (time.getD env.now) c)).run (.ok b) s' := by
  obtain ⟨answer, s₁, hcall, h⟩ := runs_bind_ok h
  obtain ⟨_, ha, env, rfl, rfl⟩ := runs_request hcall
  cases ha
  exact ⟨env, h⟩

theorem runs_discard_ok {e : Error} :
    ¬s.Runs (Node.discardIfUnused slot id >>= fun _ => (throw e : Running β)).run (.ok b) s' := by
  intro h
  obtain ⟨_, s₁, -, h⟩ := runs_bind_ok h
  exact runs_throw_ok h

theorem runs_beginSend_ok {destinations : List Address} {each : Amount}
    {constraints : CoinConstraints} {mixer guarantor : PeerId} {reply : Reply}
    (h : s.Runs (Node.beginSend destinations each constraints mixer guarantor).run (.ok reply) s') :
    ∃ schedule id now slot v, Schedule.uniform destinations each = .ok schedule ∧
      s.Begins id now (.beginAsSender schedule constraints mixer guarantor) slot v s' := by
  obtain ⟨schedule, hschedule, h⟩ := runs_orFail_ok h
  obtain ⟨-, h⟩ := runs_check_ok h
  obtain ⟨_, -, h⟩ := (still_ensureConnected _ _).runs_bind_ok h
  obtain ⟨_, -, h⟩ := (still_ensureConnected _ _).runs_bind_ok h
  obtain ⟨id, -, h⟩ := (still_request (q := .freshId) fun _ _ _ h => h).runs_bind_ok h
  obtain ⟨now, -, h⟩ := (still_request (q := .clock) fun _ _ _ h => h).runs_bind_ok h
  obtain ⟨⟨slot, evicted⟩, s₁, henroll, h⟩ := runs_bind_ok h
  obtain ⟨d, hd, rfl⟩ := runs_enroll_ok henroll
  obtain ⟨out, h⟩ := runs_evict_ok h
  obtain ⟨env, h⟩ := runs_request_ok h
  generalize hs : Session.perform _ _ _ = answer at h
  obtain ⟨e | a, v⟩ := answer
  · exact absurd h runs_discard_ok
  · obtain ⟨-, rfl⟩ := runs_done h
    refine ⟨schedule, id, now, slot, v, mapError_eq_ok.1 hschedule, ?_⟩
    rw [stepped_call (some now) hs]
    exact .intro hd hs

/-- Here the snapshot is a step of its own. -/
theorem runs_onInvite_ok (hnamed : s.node.directory.Named) {from_ : PeerId} {id : SessionId}
    {role : Role} {schedule : Schedule} {fees : FeePolicy} {constraints : CoinConstraints}
    {config : Config} {reply : Reply}
    (h : s.Runs (Node.onInvite from_ id role schedule fees constraints config).run (.ok reply) s') :
    ∃ now slot v, s.Begins id now (.beginInvited role from_ schedule fees constraints) slot v s' := by
  obtain ⟨_, -, h⟩ := (still_ensureConnected _ _).runs_bind_ok h
  obtain ⟨-, h⟩ := runs_check_ok h
  obtain ⟨-, h⟩ := runs_check_ok h
  obtain ⟨_, -, h⟩ := runs_orFail_ok h
  obtain ⟨now, -, h⟩ := (still_request (q := .clock) fun _ _ _ h => h).runs_bind_ok h
  obtain ⟨⟨slot, evicted⟩, s₁, henroll, h⟩ := runs_bind_ok h
  obtain ⟨d, hd, rfl⟩ := runs_enroll_ok henroll
  obtain ⟨out, h⟩ := runs_evict_ok h
  obtain ⟨env, h⟩ := runs_request_ok h
  generalize hs : Session.perform _ _ _ = answer at h
  obtain ⟨e | a, v⟩ := answer
  · exact absurd h runs_discard_ok
  · obtain ⟨_, s₁, hsave, h⟩ := runs_bind_ok h
    obtain ⟨-, rfl⟩ := runs_done h
    obtain ⟨_, -, env', -, rfl⟩ := runs_request hsave
    refine ⟨now, slot, v, ?_⟩
    obtain ⟨hd', ha⟩ := hnamed.getOrCreate hd
    have hsession : (d.update slot v).session slot = v :=
      Directory.session_update_self (hd' _ _ ha).1
    rw [stepped_call (some now) hs, stepped_save, session, Node.put, hsession]
    exact .intro hd hs

/-! ### The terms of a session that has begun -/

/-- A session that has just begun: it is the active one, its snapshot is in the store, and this is
how its terms can be used. -/
structure Started (s : Site) (terms : Schedule) (v : Session) : Prop where
  active : ∃ slot, s.node.directory.active = some (v.id, slot) ∧ s.session slot = v
  stored : s.store.load v.id = some v.toSnapshot
  status : v.status = .reserved
  schedule : v.schedule = terms
  nonempty : terms.isEmpty = false
  accepted : v.IsWritable → ((Session.ofSnapshot v.toSnapshot).isOk = true ↔ terms.IsReadable)
  required : (∀ role, ∃ c, v.requiredCoins (some role) = .ok c) ↔
    v.fees.senderSum terms < UInt64.size

/-- The session that begins is the active one, and has the identifier that it was enrolled under. -/
theorem Begins.placed (h : s.Begins id now c slot v s') (hnamed : s.node.directory.Named) :
    s'.node.directory.active = some (id, slot) ∧ s'.session slot = v ∧ v.id = id := by
  obtain ⟨henroll, hbegin⟩ := h
  next evicted d a =>
  obtain ⟨hd, ha⟩ := hnamed.getOrCreate henroll
  obtain ⟨hlt, hid⟩ := hd id slot ha
  refine ⟨ha, Directory.session_update_self hlt, ?_⟩
  rw [← hid, ← Session.perform_id (d.session slot) now c, hbegin]

theorem untouched_enrolled {d d' : Directory} {evicted : Option Eviction}
    (h : d.getOrCreate id now = .ok ((slot, evicted), d'))
    (huntouched : ∀ slot, (d.session slot).Untouched) : (d'.session slot).Untouched := by
  rcases Directory.getOrCreate_ok h with ⟨-, rfl⟩ | ⟨d₁, hv, rfl, rfl⟩
  · exact huntouched slot
  · rw [← hv.length_eq, Directory.session_opened_self]
    exact Session.fresh_untouched _ _ _

theorem Begins.started {terms : Schedule} (h : s.Begins id now c slot v s')
    (hnamed : s.node.directory.Named) (huntouched : ∀ slot, (s.session slot).Untouched)
    (hopened : ∀ (u : Session) a v, u.Untouched → u.perform now c = (.ok a, v) → v.Opened terms) :
    s'.Started terms v := by
  obtain ⟨ha, hsession, hid⟩ := h.placed hnamed
  obtain ⟨henroll, hbegin⟩ := h
  next evicted d a =>
  have hv := hopened _ _ _ (untouched_enrolled henroll huntouched) hbegin
  have hpersist : Node.persist v = .save v.id v.toSnapshot := if_neg hv.begun
  refine ⟨⟨slot, hid ▸ ha, hsession⟩, ?_, hv.status, hv.schedule, hv.nonempty, hv.accepted, ?_⟩
  · rw [hpersist]
    exact Store.Memory.load_save _ _ _
  · rw [Session.requiredCoins_isOk_iff, hv.schedule]

end Site

/-- The payouts that a command begins a session with, if they can be scheduled. -/
def Node.Command.offered? : Command → Option Schedule
  | .beginSend destinations each .. => (Schedule.uniform destinations each).toOption
  | .onInvite _ _ _ schedule .. => some schedule
  | _ => none

/-- A command that leads into a session and succeeds leaves the session as the active one, reserved
and in the store, with the payouts that were offered, at least one. The Sender's own schedule is
valid. Whether the snapshot will be accepted is up to the schedule alone, which may have come with an
invitation in any form; and whether each role can be told its part of the escrow is up to the sum
that the Sender has to place there. -/
theorem Process.Reaches.terms_of_started {config : Config} {w : Process} {c : Command}
    {store : Store.Memory} {terms : Schedule} {reply : Reply} {s' : Site}
    (hw : (start config).Reaches w) (hc : c.offered? = some terms)
    (h : Site.Runs ⟨w.node, store⟩ (c.program w.node.config) (.ok reply) s') :
    ∃ v, s'.Started terms v ∧ (∀ destinations each constraints mixer guarantor,
      c = .beginSend destinations each constraints mixer guarantor → terms.Valid) := by
  cases c with
  | beginSend destinations each constraints mixer guarantor =>
    obtain ⟨schedule, id, now, slot, v, hschedule, hbegins⟩ := Site.runs_beginSend_ok h
    obtain rfl : schedule = terms := by
      have hoffered : (Schedule.uniform destinations each).toOption = some terms := hc
      rw [hschedule] at hoffered
      exact Option.some.inj hoffered
    refine ⟨v, hbegins.started hw.named hw.untouched fun u _ v hu => ?_, fun _ _ _ _ _ _ => ?_⟩
    · exact Session.beginAsSender_opened hu
    · exact (Schedule.ofPayouts_eq_ok.1 hschedule).2
  | onInvite from_ id role schedule fees constraints =>
    obtain rfl : schedule = terms := Option.some.inj hc
    obtain ⟨now, slot, v, hbegins⟩ := Site.runs_onInvite_ok hw.named h
    refine ⟨v, hbegins.started hw.named hw.untouched fun u _ v hu hs => ?_, nofun⟩
    exact (Session.beginInvited_opened hu hs).1
  | _ => cases hc

namespace Invitation

open SigningMixer (sessionId circumstances)

/-- An invitation with one payout of this amount. -/
def offer (amount : Amount) : Command :=
  .onInvite ⟨1⟩ sessionId .mixer ⟨[⟨⟨"payee"⟩, amount⟩]⟩ Config.standard.feePolicy .none

/-- A node that has just started. -/
def site : Site := ⟨(Process.start .standard).node, .empty⟩

/-- How the node answers the invitation. -/
def joined (amount : Amount) : Except Error Reply × Site :=
  ((offer amount).program site.node.config).run (Site.answerIn circumstances) site

theorem runs (amount : Amount) (h : (joined amount).1.isOk = true) : ∃ reply,
    Site.Runs site ((offer amount).program site.node.config) (.ok reply) (joined amount).2 := by
  obtain ⟨reply, hreply⟩ := exists_eq_ok h
  refine ⟨reply, ?_⟩
  rw [← hreply]
  exact Site.runs_run circumstances _ site

end Invitation

open Invitation in
theorem Process.Reaches.terms_of_joined : ∃ reply v,
    Site.Runs site ((offer ⟨100000⟩).program site.node.config) (.ok reply) (joined ⟨100000⟩).2 ∧
      (joined ⟨100000⟩).2.Started ⟨[⟨⟨"payee"⟩, ⟨100000⟩⟩]⟩ v := by
  obtain ⟨reply, h⟩ := Invitation.runs ⟨100000⟩ (by decide +kernel)
  obtain ⟨v, hv, -⟩ := terms_of_started (.refl (w := start .standard)) rfl h
  exact ⟨reply, v, h, hv⟩

open Invitation in
/-- An invitation to pay nothing is accepted, although such payouts cannot be scheduled, and what is
stored of the session cannot be read again. -/
theorem Process.session_pays_nothing :
    (∃ reply, Site.Runs site ((offer .zero).program site.node.config) (.ok reply)
      (joined .zero).2) ∧
    ((joined .zero).2.session 0).status = .reserved ∧
    ((joined .zero).2.session 0).schedule.payouts = [⟨⟨"payee"⟩, .zero⟩] ∧
    failure? (Schedule.ofPayouts [⟨⟨"payee"⟩, .zero⟩]) = some (.zeroAmount ⟨"payee"⟩) ∧
    ((joined .zero).2.store.load SigningMixer.sessionId).map (fun snapshot =>
      (Session.ofSnapshot snapshot).isOk) = some false :=
  ⟨Invitation.runs .zero (by decide +kernel), by decide +kernel, by decide +kernel, by decide +kernel,
    by decide +kernel⟩

end EscrowMix
