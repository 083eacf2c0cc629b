import EscrowMix.Proofs.Node.Sessions
import EscrowMix.Proofs.Session.Calls

/-!
Whatever a node does to its sessions is made of calls. So what is true of every session that calls
lead to is true of a node's sessions, and a deposit of theirs counts as one that can be taken back
only after the node was told so.
-/

namespace EscrowMix

open Node (Command Reply Wait Claims Starts Settles Proceeds)
open Session (Call)

/-- From one directory to another: calls on its sessions, each of which may be made in its slot, and
sessions that are opened or closed. -/
inductive Directory.Works (may : Slot → Call → Prop) (d : Directory) : Directory → Prop
  | refl : Works may d d
  | call {d' : Directory} {slot : Slot} {now : UInt64} {c : Call} {answer : Except Error c.Answer}
      {s : Session} (h : Works may d d') (hm : c.IsMatched) (hc : may slot c)
      (hs : (d'.session slot).perform now c = (answer, s)) : Works may d (d'.update slot s)
  | opened {d' : Directory} (h : Works may d d') (id : SessionId) (now : UInt64) :
      Works may d (d'.opened id now)
  | closed {d' : Directory} (h : Works may d d') : Works may d d'.closed

/-- In every slot stands what calls made of a new session, which marked only these deposits. -/
def Directory.Made (marks : Slot → Role → Prop) (d : Directory) : Prop :=
  ∀ slot, ∃ id fees now, (Session.fresh id fees now).Calls (marks slot) (d.session slot)

namespace Directory

variable {d d' d₁ : Directory} {slot : Slot} {s : Session} {id : SessionId} {now : UInt64}
  {may : Slot → Call → Prop} {marks marks' : Slot → Role → Prop}

theorem Works.trans {d'' : Directory} (h : Works may d d') (h' : Works may d' d'') :
    Works may d d'' := by
  induction h' with
  | refl => exact h
  | call _ hm hc hs ih => exact ih.call hm hc hs
  | opened _ id now ih => exact ih.opened id now
  | closed _ ih => exact ih.closed

theorem Works.sound (h : Works may d d') (hd : d.Sound) : d'.Sound := by
  induction h with
  | refl => exact hd
  | call _ hm _ hs ih => exact (Turns.update ih hm hs).sound
  | opened _ id now ih => exact ih.opened id now
  | closed _ ih => exact ⟨ih.consistent, nofun⟩

section

variable (hr : ∀ slot c, c.isRoutine = true → may slot c)
include hr

theorem Works.reset (h : Works may d d') (hs : (d'.session slot).reset true now = .ok s) :
    Works may d (d'.update slot s) :=
  h.call (c := .reset true) trivial (hr _ _ rfl) (Session.perform_reset hs)

theorem works_getOrCreate {evicted : Option Eviction}
    (hg : d.getOrCreate id now = .ok ((slot, evicted), d')) : Works may d d' := by
  rcases getOrCreate_ok hg with ⟨-, rfl⟩ | ⟨d₁, hv, -, rfl⟩
  · exact .refl
  · cases hv with
    | free | finished => exact Works.refl.opened id now
    | cleared _ _ _ hreset => exact (Works.refl.reset hr hreset).opened id now

theorem works_sweep (d : Directory) (now maxIdle : UInt64) (locked : Option Slot) :
    Works may d (d.sweep now maxIdle locked).2 := by
  rcases sweep_cases d now maxIdle locked with he | ⟨id, slot, -, -, ⟨s, hs, he⟩ | he⟩ <;> rw [he]
  · exact .refl
  · exact (Works.refl.reset hr hs).closed
  · have hf : (d.session slot).perform now .flag = (.ok (), (d.session slot).flag now) := rfl
    exact Works.refl.call (c := .flag) trivial (hr _ _ rfl) hf

end

theorem Works.drop (h : Works may d d') (id : SessionId) : Works may d (d'.drop id).2 := by
  rcases drop_cases d' id with ⟨-, he⟩ | ⟨-, he⟩ <;> rw [he]
  · exact h.closed
  · exact h

/-! ### Sessions that calls made -/

theorem empty_made (fees : FeePolicy) : (empty fees).Made marks :=
  fun _ => ⟨_, _, _, .refl⟩

theorem Made.mono (h : d.Made marks) (hm : ∀ slot role, marks slot role → marks' slot role) :
    d.Made marks' := by
  intro slot
  obtain ⟨id, fees, now, hc⟩ := h slot
  exact ⟨id, fees, now, hc.mono (hm slot)⟩

theorem Made.update (h : d.Made marks) {c : Call} (hc : c.IsMatched)
    (hm : ∀ role, c = .markReclaimable role → marks slot role) {answer : Except Error c.Answer}
    (hs : (d.session slot).perform now c = (answer, s)) : (d.update slot s).Made marks := by
  intro slot'
  rw [session_update]
  split
  · next he =>
    obtain ⟨rfl, -⟩ := he
    obtain rfl : ((d.session slot').perform now c).2 = s := (Prod.mk.inj hs).2
    obtain ⟨id, fees, start, hcalls⟩ := h slot'
    exact ⟨id, fees, start, hcalls.snoc now c hc hm⟩
  · exact h slot'

theorem Made.opened (h : d.Made marks) (id : SessionId) (now : UInt64) :
    (d.opened id now).Made marks := by
  intro slot
  rcases Nat.lt_trichotomy slot d.sessions.length with hlt | rfl | hgt
  · rw [session_opened_of_lt hlt]
    exact h slot
  · rw [session_opened_self]
    exact ⟨_, _, _, .refl⟩
  · rw [session_of_length_le (length_opened.symm ▸ hgt)]
    exact ⟨_, _, _, .refl⟩

theorem Works.made (h : Works may d d') (hd : d.Made marks)
    (hm : ∀ slot role, may slot (.markReclaimable role) → marks slot role) : d'.Made marks := by
  induction h with
  | refl => exact hd
  | call _ hmatched hc hs ih => exact ih.update hmatched (fun role he => hm _ role (he ▸ hc)) hs
  | opened _ id now ih => exact ih.opened id now
  | closed _ ih => exact ih

end Directory

namespace Node

variable {n n' n₁ : Node} {c : Command} {ids : List SessionId} {w : Wait}
  {p : Program interface (Except Error Reply)} {may : Slot → Call → Prop}

/-- The command tells the active session that the deposit of a role can be taken back, and the
session takes note. -/
def Marks (n : Node) (c : Command) (slot : Slot) (role : Role) : Prop :=
  ∃ id now s, c = .markReclaimable id role ∧ n.directory.active = some (id, slot) ∧
    (n.directory.session slot).markReclaimable role now = .ok s

theorem single?_routine {id : SessionId} {call : Call} (h : c.single? = some (id, call)) :
    call.isRoutine = true ∨ ∃ role, call = .markReclaimable role ∧ c = .markReclaimable id role := by
  cases c <;> cases h <;> first | exact .inl rfl | exact .inr ⟨_, rfl, rfl⟩

theorem announced?_routine {id : SessionId} {call : Call} {message : Role → PeerMessage}
    (h : c.announced? = some (id, call, message)) : call.isRoutine = true := by
  cases c <;> cases h <;> rfl

theorem Claims.not_sent (h : Claims n c n₁ w) (tx : Bytes) : ¬w.Sent tx := by
  cases h <;> nofun

section

variable (hr : ∀ slot call, call.isRoutine = true → may slot call)
include hr

/-- A command that goes on makes one call at most. It completes a session only after its wallet
broadcast. -/
theorem Proceeds.works (h : Proceeds n w n' p)
    (hsent : ∀ tx, w.Sent tx → may w.slot (.completeCommit w.ticket)) :
    Directory.Works may n.directory n'.directory := by
  rcases h with ⟨-, rfl, -⟩ | ⟨r, h, -⟩
  · exact .refl
  · obtain ⟨now, c, answer, s, hm, hc, hs, rfl, -⟩ := h.call
    rcases hc with hc | ⟨rfl, tx, hw⟩
    · exact Directory.Works.refl.call hm (hr _ _ hc) hs
    · exact Directory.Works.refl.call hm (hsent tx hw) hs

/-- A command that is told makes routine calls, or marks a deposit. -/
theorem Starts.works (h : Starts n c ids n' p)
    (hmark : ∀ slot role, n.Marks c slot role → may slot (.markReclaimable role)) :
    Directory.Works may n.directory n'.directory := by
  cases h with
  | refused | looked => exact .refl
  | called hc ha hs =>
    refine Directory.Works.refl.call (single?_plain hc).1 ?_ hs
    rcases single?_routine hc with hroutine | ⟨role, rfl, rfl⟩
    · exact hr _ _ hroutine
    · exact hmark _ role ⟨_, _, _, rfl, ha, Session.orKeepUnit_eq_ok.1 hs⟩
  | announced hc _ _ hs =>
    exact Directory.Works.refl.call (announced?_plain hc).1 (hr _ _ (announced?_routine hc)) hs
  | sent _ hg hs =>
    exact (Directory.works_getOrCreate hr hg).call (c := .beginAsSender ..) trivial (hr _ _ rfl)
      (Session.perform_beginAsSender hs)
  | joined _ hg hs =>
    exact (Directory.works_getOrCreate hr hg).call (c := .beginInvited ..) trivial (hr _ _ rfl)
      (Session.perform_beginInvited hs)
  | @unused _ _ id _ _ _ _ _ hg =>
    have hopened := Directory.works_getOrCreate hr hg
    unfold withSessions
    split
    · exact hopened.drop id
    · exact hopened
  | left _ hs => exact (Directory.Works.refl.reset hr hs).closed
  | swept => exact Directory.works_sweep hr _ _ _ none
  | claimed hc hp =>
    obtain ⟨-, t, -, -, rfl, now, call, answer, hm, hroutine, hs⟩ := hc.pending
    have hclaimed := Directory.Works.refl.call hm (hr _ _ hroutine) hs
    exact hclaimed.trans (hp.works hr fun tx hw => absurd hw (hc.not_sent tx))

end

end Node

/-- At this moment the session in a slot takes note that the deposit of a role can be taken back. -/
def Moment.Marks (m : Moment) (slot : Slot) (role : Role) : Prop :=
  ∃ c, m.move = .start c ∧ m.before.node.Marks c slot role

theorem Moment.Acts.made {ms : List Moment} {m : Moment} {marks : Slot → Role → Prop}
    (h : m.Acts ms) (hd : m.before.node.directory.Made marks)
    (hm : ∀ slot role, m.Marks slot role → marks slot role) :
    m.after.node.directory.Made marks := by
  -- whatever is called, only a mark is of interest
  have hr : ∀ slot (c : Call), c.isRoutine = true →
      ∀ role, c = .markReclaimable role → marks slot role := by
    rintro slot c hc role rfl
    cases hc
  cases h with
  | start h =>
    refine (h.works hr fun slot role hmarks _ he => ?_).made hd fun _ role hc => hc role rfl
    cases he
    exact hm slot role ⟨_, rfl, hmarks⟩
  | resume _ _ _ h => exact (h.works hr fun _ _ => nofun).made hd fun _ role hc => hc role rfl

namespace Path

variable {config : Config} {ms : List Moment} {w : Process} {slot : Slot} {role : Role}

theorem made (h : Path (.start config) ms w) :
    w.node.directory.Made fun slot role => ∃ m ∈ ms, m.Marks slot role := by
  induction h with
  | refl => exact Directory.empty_made _
  | @snoc ms m h hm ih =>
    refine (hm.acts h.jobsSound).made (ih.mono fun slot role hmarks => ?_) fun slot role hmarks => ?_
    · obtain ⟨m', hmem, hmarks⟩ := hmarks
      exact ⟨m', List.mem_append_left _ hmem, hmarks⟩
    · exact ⟨m, List.mem_append_right _ (List.mem_singleton_self m), hmarks⟩

/-- Calls alone make the sessions of a node. -/
theorem reachable (h : Path (.start config) ms w) (slot : Slot) : (w.session slot).Reachable := by
  obtain ⟨id, fees, now, hcalls⟩ := h.made slot
  exact (Session.Reachable.fresh id fees now).calls hcalls

/-- A deposit counts as one that can be taken back only after the session took note of that. -/
theorem marked_of_reclaimable (h : Path (.start config) ms w)
    (hr : (w.session slot).record.reclaimable.get role = true) : ∃ m ∈ ms, m.Marks slot role := by
  obtain ⟨id, fees, now, hcalls⟩ := h.made slot
  rcases hcalls.reclaimable hr with hr | hm
  · cases role <;> cases hr
  · exact hm

end Path

end EscrowMix
