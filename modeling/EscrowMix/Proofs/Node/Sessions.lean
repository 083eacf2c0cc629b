import EscrowMix.Proofs.Node.Process
import EscrowMix.Proofs.Session.Evolution

/-!
What a segment does to the sessions of a node: every session keeps its slot and evolves as calls let
it, and the active session gives way only when nothing is lost with it.
-/

namespace EscrowMix

open Session (Call Consistent Evolves)

/-- Status and data agree in every session, and the active one is in its slot. -/
structure Directory.Sound (d : Directory) : Prop where
  consistent : ∀ slot, (d.session slot).Consistent
  active : ∀ id slot, d.active = some (id, slot) →
    slot < d.sessions.length ∧ (d.session slot).id = id

/-- A session that may give way to another: it is over, or it can be reset. -/
def Session.Yields (s : Session) : Prop := s.isInProgress = false ∨ s.canReset = true

/-- From one state of a directory to the next. A session with something to lose is cleared only
with an excuse, and its deposits pass their check only when they are judged. -/
structure Directory.Turns (excused : Prop) (judged : Slot → Prop) (d d' : Directory) : Prop where
  sound : d'.Sound
  fees : d'.fees = d.fees
  length : d.sessions.length ≤ d'.sessions.length
  evolves : ∀ slot, slot < d.sessions.length →
    Evolves (d.session slot) excused (judged slot) (d'.session slot)
  unverified : ∀ slot, d.sessions.length ≤ slot → ¬(d'.session slot).IsVerified
  active : ∀ id slot, d.active = some (id, slot) →
    d'.active = some (id, slot) ∨ (d.session slot).Yields

namespace Directory

variable {d d' d₁ : Directory} {slot : Slot} {s : Session} {now : UInt64} {id : SessionId}
  {excused : Prop} {judged : Slot → Prop}

theorem empty_sound (fees : FeePolicy) : (empty fees).Sound where
  consistent _ := Session.fresh_consistent _ _ _
  active := nofun

theorem fresh_not_isVerified (id : SessionId) (fees : FeePolicy) (now : UInt64) :
    ¬(Session.fresh id fees now).IsVerified :=
  Session.not_isVerified .notBegun rfl (by decide)

theorem Turns.refl (h : d.Sound) : Turns excused judged d d where
  sound := h
  fees := rfl
  length := Nat.le_refl _
  evolves _ _ := .refl _
  unverified slot hle := by
    rw [session_of_length_le hle]
    exact fresh_not_isVerified _ _ _
  active _ _ ha := .inl ha

theorem Turns.mono {excused' : Prop} {judged' : Slot → Prop} (h : Turns excused judged d d')
    (he : excused → excused') (hj : ∀ slot, judged slot → judged' slot) :
    Turns excused' judged' d d' :=
  { h with evolves := fun slot hlt => (h.evolves slot hlt).mono he (hj slot) }

/-! ### One call -/

/-- A session in the place of one with the same identifier. -/
theorem Sound.update (h : d.Sound) (hs : s.Consistent) (hid : s.id = (d.session slot).id) :
    (d.update slot s).Sound where
  consistent slot' := by
    rw [session_update]
    split
    · exact hs
    · exact h.consistent slot'
  active id slot' ha := by
    obtain ⟨hlt, hid'⟩ := h.active id slot' ha
    refine ⟨by rwa [length_update], ?_⟩
    rw [session_update]
    split
    · next he => rw [hid, ← he.1, hid']
    · exact hid'

theorem Turns.update (h : d.Sound) {c : Call} (hc : c.IsMatched) {answer : Except Error c.Answer}
    (hs : (d.session slot).perform now c = (answer, s)) :
    Turns (c.Overrides answer) (fun slot' => slot' = slot ∧ (d.session slot).Judges c) d
      (d.update slot s) := by
  have he := Session.perform_evolves (h.consistent slot) hc hs
  have hcons : s.Consistent := (h.consistent slot).performed hc hs
  refine ⟨h.update hcons he.id_eq, rfl, Nat.le_of_eq length_update.symm, fun slot' _ => ?_,
    fun slot' hle => ?_, fun _ _ ha => .inl ha⟩
  · rw [session_update]
    split
    · next heq =>
      rw [heq.1]
      exact he.mono (fun h => h) fun h => ⟨rfl, h⟩
    · exact .refl _
  · rw [session_of_length_le (length_update.symm ▸ hle)]
    exact fresh_not_isVerified _ _ _

theorem Turns.thenUpdate (h : Turns excused judged d d') (hslot : d.sessions.length ≤ slot) {c : Call}
    (hc : c.IsMatched) (hj : c.acceptance? = none) {answer : Except Error c.Answer}
    (hs : (d'.session slot).perform now c = (answer, s)) :
    Turns excused judged d (d'.update slot s) := by
  have hu := Turns.update h.sound hc hs
  refine ⟨hu.sound, h.fees, by rw [length_update]; exact h.length, fun slot' hlt => ?_,
    fun slot' hle => ?_, h.active⟩
  · rw [session_update, if_neg fun he => ?_]
    · exact h.evolves slot' hlt
    · rw [he.1] at hlt
      exact absurd hlt (Nat.not_lt.2 hslot)
  · rw [session_update]
    split
    · next he =>
      intro hv
      rcases (Session.perform_evolves (h.sound.consistent slot) hc hs).isVerified hv with hv | hv
      · exact h.unverified slot hslot hv
      · exact Session.not_judges hj hv
    · exact h.unverified slot' hle

/-! ### Opening and closing -/

theorem Sound.opened (h : d.Sound) (id : SessionId) (now : UInt64) : (d.opened id now).Sound where
  consistent slot := by
    rcases Nat.lt_trichotomy slot d.sessions.length with hlt | rfl | hgt
    · rw [session_opened_of_lt hlt]
      exact h.consistent slot
    · rw [session_opened_self]
      exact Session.fresh_consistent _ _ _
    · rw [session_of_length_le (length_opened.symm ▸ hgt)]
      exact Session.fresh_consistent _ _ _
  active id' slot ha := by
    cases ha
    refine ⟨by simp, ?_⟩
    rw [session_opened_self]

/-- A call that clears nothing by force and takes no verdict needs no excuse. -/
theorem Turns.plain {c : Call} {answer : c.Answer}
    (h : Turns (c.Overrides (.ok answer)) (fun slot' => slot' = slot ∧ s.Judges c) d d')
    (hf : c.isForced = false) (hj : c.acceptance? = none) : Turns excused judged d d' :=
  h.mono (fun h => absurd h (Call.not_overrides hf _)) fun _ h =>
    absurd h.2 (Session.not_judges hj)

theorem Vacated.turns (h : d.Sound) (hv : Vacated d id now d₁) : Turns excused judged d d₁ := by
  cases hv with
  | free | finished => exact .refl h
  | @cleared id' slot s ha hid hbusy hreset =>
    have hu := Turns.update h (by trivial) (Session.perform_reset hreset)
    exact hu.plain rfl rfl

/-- Whoever makes room has nothing to lose. -/
theorem Vacated.yields (hv : Vacated d id now d₁) :
    ∀ id' slot, d.active = some (id', slot) → (d.session slot).Yields := by
  intro id' slot ha
  cases hv with
  | free hf =>
    rw [hf] at ha
    cases ha
  | finished ha' _ hover =>
    cases ha.symm.trans ha'
    exact .inl hover
  | cleared ha' _ _ hreset =>
    cases ha.symm.trans ha'
    exact .inr (Session.reset_ok hreset).1

theorem Turns.opened (h : d.Sound) (hv : Vacated d id now d₁) :
    Turns excused judged d (d₁.opened id now) := by
  have ht : Turns excused judged d d₁ := hv.turns h
  refine ⟨ht.sound.opened id now, ht.fees, ?_, fun slot hlt => ?_, fun slot hle => ?_,
    fun id' slot ha => .inr (hv.yields id' slot ha)⟩
  · rw [length_opened]
    exact Nat.le_succ_of_le ht.length
  · rw [session_opened_of_lt (Nat.lt_of_lt_of_le hlt ht.length)]
    exact ht.evolves slot hlt
  · rcases Nat.lt_trichotomy slot d₁.sessions.length with hlt | rfl | hgt
    · rw [session_opened_of_lt hlt]
      exact ht.unverified slot hle
    · rw [session_opened_self]
      exact fresh_not_isVerified _ _ _
    · rw [session_of_length_le (length_opened.symm ▸ hgt)]
      exact fresh_not_isVerified _ _ _

theorem Turns.closed (h : Turns excused judged d d')
    (hy : ∀ id slot, d.active = some (id, slot) → (d.session slot).Yields) :
    Turns excused judged d d'.closed :=
  { h with
    sound := ⟨h.sound.consistent, nofun⟩
    active := fun id slot ha => .inr (hy id slot ha) }

/-- A change after one that matters to no session. -/
theorem Turns.after (h : Turns excused judged d₁ d') (hfees : d₁.fees = d.fees)
    (hactive : d₁.active = d.active) (hlen : d₁.sessions.length = d.sessions.length)
    (hsame : ∀ slot, (d.session slot).Same (d₁.session slot) ∧
      (d₁.session slot).epoch = (d.session slot).epoch) : Turns excused judged d d' where
  sound := h.sound
  fees := h.fees.trans hfees
  length := hlen ▸ h.length
  evolves slot hlt := (hsame slot).1.evolves (hsame slot).2 (h.evolves slot (hlen ▸ hlt))
  unverified slot hle := h.unverified slot (hlen.symm ▸ hle)
  active id slot ha := by
    refine (h.active id slot (hactive ▸ ha)).imp_right fun hy => ?_
    rw [Session.Yields, Session.isInProgress, (hsame slot).1.status, (hsame slot).1.canReset_eq] at hy
    exact hy

/-- A transition that becomes outstanding, or no longer is, matters to no session. -/
theorem pending_same (d : Directory) (slot : Slot) (pending : Option Transition) (slot' : Slot) :
    (d.session slot').Same
        ((d.update slot { d.session slot with pending := pending }).session slot') ∧
      ((d.update slot { d.session slot with pending := pending }).session slot').epoch =
        (d.session slot').epoch := by
  rw [session_update]
  split
  · next he =>
    rw [he.1]
    exact ⟨⟨rfl, rfl, rfl, rfl, rfl, rfl, fun _ => rfl, fun _ => rfl, rfl⟩, rfl⟩
  · exact ⟨.refl _, rfl⟩

end Directory

/-! ### Segments -/

namespace Node

@[simp] theorem put_directory (n : Node) (slot : Slot) (s : Session) :
    (n.put slot s).directory = n.directory.update slot s := rfl

variable {n n' n₁ : Node} {c : Command} {ids : List SessionId} {w : Wait}
  {p : Program interface (Except Error Reply)} {excused : Prop} {judged : Slot → Prop}

theorem endsFatal_map {c : Call} {answer : Except Error c.Answer} {f : c.Answer → Reply}
    (hc : c.isForced = false) (h : c.Overrides answer) : endsFatal (.done (answer.map f)) = true := by
  rcases h with ⟨reason, rfl⟩ | he
  · rfl
  · rw [hc] at he
    cases he

/-- The verdict that the deposits in a slot passed their check comes at the end of a command, in the
epoch in which it claimed. -/
def Judged (n : Node) (w : Wait) (slot : Slot) : Prop :=
  w = .verify slot (n.directory.session slot).epoch (.mk (.done (.ok .accepted)))

/-- Settling is one call on the session that the command waited with. -/
theorem Settles.call {r : Except Error Reply} (h : Settles n w n' r) :
    ∃ now, ∃ c : Call, ∃ answer s, c.IsMatched ∧
      (c.isRoutine = true ∨ c = .completeCommit w.ticket ∧ ∃ tx, w.Sent tx) ∧
      (n.directory.session w.slot).perform now c = (answer, s) ∧ n' = n.put w.slot s ∧
      (c.Overrides answer → endsFatal (.done r) = true) ∧
      ((n.directory.session w.slot).Judges c → n.Judged w w.slot) := by
  cases h with
  | derived hs =>
    exact ⟨_, .completeMultisig _ _, _, _, by rfl, .inl rfl, hs, rfl, endsFatal_map (by rfl),
      fun h => absurd h (Session.not_judges rfl)⟩
  | @verified slot epoch verdict now answer s hs =>
    refine ⟨_, .completeVerification _ _, _, _, by rfl, .inl rfl, hs, rfl, endsFatal_map (by rfl),
      ?_⟩
    rintro ⟨ticket, ht, he⟩
    cases verdict with
    | rejected => cases ht
    | accepted =>
      cases ht
      obtain rfl : epoch = (n.directory.session slot).epoch := he
      rfl
  | signed hs =>
    exact ⟨_, .completeSignature _ _ _, _, _, ⟨_, rfl⟩, .inl rfl, hs, rfl, endsFatal_map (by rfl),
      fun h => absurd h (Session.not_judges rfl)⟩
  | committed hs =>
    exact ⟨_, .completeCommit _, _, _, by rfl, .inr ⟨rfl, _, .commit⟩, hs, rfl,
      endsFatal_map (by rfl), fun h => absurd h (Session.not_judges rfl)⟩
  | followed hs =>
    exact ⟨_, .completeCommit _, _, _, by rfl, .inr ⟨rfl, _, .follow⟩, hs, rfl,
      endsFatal_map (by rfl), fun h => absurd h (Session.not_judges rfl)⟩
  | released =>
    refine ⟨0, .release w.ticket, _, _, trivial, .inl rfl, rfl, rfl, ?_,
      fun h => absurd h (Session.not_judges rfl)⟩
    rintro (⟨reason, he⟩ | he) <;> cases he

theorem Settles.turns {r : Except Error Reply} (hd : n.directory.Sound) (h : Settles n w n' r) :
    Directory.Turns (endsFatal (.done r) = true) (n.Judged w) n.directory n'.directory := by
  obtain ⟨now, c, answer, s, hc, -, hs, rfl, he, hj⟩ := h.call
  refine (Directory.Turns.update hd hc hs).mono he fun slot h => ?_
  rw [h.1]
  exact hj h.2

theorem Proceeds.turns (hd : n.directory.Sound) (h : Proceeds n w n' p) :
    Directory.Turns (endsFatal p = true) (n.Judged w) n.directory n'.directory := by
  rcases h with ⟨-, rfl, -⟩ | ⟨r, h, rfl⟩
  · exact .refl hd
  · exact h.turns hd

/-- A claim only makes a transition of the active session outstanding. -/
theorem Claims.pending (h : Claims n c n₁ w) :
    ∃ id t, n.directory.active = some (id, w.slot) ∧
      w.ticket = ⟨t, (n.directory.session w.slot).epoch⟩ ∧
      n₁ = n.put w.slot { n.directory.session w.slot with pending := some t } ∧
      ∃ now, ∃ call : Call, ∃ answer, call.IsMatched ∧ call.isRoutine = true ∧
        (n.directory.session w.slot).perform now call =
          (.ok answer, { n.directory.session w.slot with pending := some t }) := by
  cases h with
  | derive ha hs =>
    have hp := hs
    obtain ⟨-, -, -, ht, rfl⟩ := Session.claimMultisig_ok hs
    cases ht
    exact ⟨_, _, ha, rfl, rfl, 0, .claimMultisig, _, trivial, rfl, Session.orKeep_eq_ok.2 hp⟩
  | verify ha hs =>
    have hp := hs
    obtain ⟨-, -, -, -, -, ht, rfl⟩ := Session.claimVerification_ok hs
    cases ht
    exact ⟨_, _, ha, rfl, rfl, 0, .claimVerification _, _, trivial, rfl, Session.orKeep_eq_ok.2 hp⟩
  | sign ha hs =>
    have hp := hs
    obtain ⟨-, own, round, _, _, -, -, -, -, -, -, ht, rfl⟩ := Session.claimSignature_ok hs
    cases ht
    exact ⟨_, _, ha, rfl, rfl, 0, .claimSignature, _, trivial, rfl, Session.orKeep_eq_ok.2 hp⟩
  | commit ha hs =>
    have hp := hs
    obtain ⟨-, -, -, -, ht, rfl⟩ := Session.claimCommit_ok hs
    cases ht
    exact ⟨_, _, ha, rfl, rfl, 0, .claimCommit _, _, trivial, rfl, Session.orKeep_eq_ok.2 hp⟩
  | follow ha hs =>
    have hp := hs
    obtain ⟨-, -, -, -, ht, rfl⟩ := Session.claimCommit_ok hs
    cases ht
    exact ⟨_, _, ha, rfl, rfl, 0, .claimCommit _, _, trivial, rfl, Session.orKeep_eq_ok.2 hp⟩

theorem Claims.turns {n' : Node} {p : Program interface (Except Error Reply)}
    (hd : n.directory.Sound) (hc : Claims n c n₁ w) (hp : Proceeds n₁ w n' p) :
    Directory.Turns (endsFatal p = true) (n.Judged w) n.directory n'.directory := by
  obtain ⟨id, t, -, -, rfl, now, call, answer, hm, -, hs⟩ := hc.pending
  have hsame := n.directory.pending_same w.slot (some t)
  have hu := Directory.Turns.update hd hm hs
  refine ((hp.turns hu.sound).mono (fun h => h) fun slot hj => ?_).after rfl rfl
    Directory.length_update hsame
  rw [Judged, put_directory, (hsame slot).2] at hj
  exact hj

theorem single?_plain {id : SessionId} {call : Call} (h : c.single? = some (id, call)) :
    call.IsMatched ∧ call.isForced = false ∧ call.acceptance? = none := by
  cases c <;> cases h <;> exact ⟨trivial, rfl, rfl⟩

theorem announced?_plain {id : SessionId} {call : Call} {message : Role → PeerMessage}
    (h : c.announced? = some (id, call, message)) :
    call.IsMatched ∧ call.isForced = false ∧ call.acceptance? = none := by
  cases c <;> cases h <;> exact ⟨trivial, rfl, rfl⟩

/-- A session is found or opened, and begun. -/
theorem begun_turns {d : Directory} {id : SessionId} {slot : Slot} {now : UInt64}
    {evicted : Option Eviction} {call : Call} {answer : call.Answer} {s : Session}
    (hd : n.directory.Sound) (hg : n.directory.getOrCreate id now = .ok ((slot, evicted), d))
    (hm : call.IsMatched) (hf : call.isForced = false) (hj : call.acceptance? = none)
    (hs : (d.session slot).perform now call = (.ok answer, s)) :
    Directory.Turns excused judged n.directory (d.update slot s) := by
  rcases Directory.getOrCreate_ok hg with ⟨-, rfl⟩ | ⟨d₁, hv, rfl, rfl⟩
  · exact (Directory.Turns.update hd hm hs).plain hf hj
  · exact (Directory.Turns.opened hd hv).thenUpdate (Nat.le_refl _) hm hj hs

theorem unused_turns {d : Directory} {id : SessionId} {slot : Slot} {now : UInt64}
    {evicted : Option Eviction} (hd : n.directory.Sound)
    (hg : n.directory.getOrCreate id now = .ok ((slot, evicted), d)) :
    Directory.Turns excused judged n.directory
      (if (d.session slot).status = .notBegun then (d.drop id).2 else d) := by
  rcases Directory.getOrCreate_ok hg with ⟨ha, rfl⟩ | ⟨d₁, hv, rfl, rfl⟩
  · split
    · next hst =>
      rcases Directory.drop_cases n.directory id with ⟨-, h⟩ | ⟨-, h⟩ <;> rw [h]
      · refine (Directory.Turns.refl hd).closed fun id' slot' ha' => .inl ?_
        cases ha.symm.trans ha'
        rw [Session.isInProgress, hst]
        rfl
      · exact .refl hd
    · exact .refl hd
  · have ht : Directory.Turns excused judged n.directory (d₁.opened id now) := .opened hd hv
    split
    · rcases Directory.drop_cases (d₁.opened id now) id with ⟨-, h⟩ | ⟨-, h⟩ <;> rw [h]
      · exact ht.closed hv.yields
      · exact ht
    · exact ht

theorem left_turns {id : SessionId} {slot : Slot} {now : UInt64} {s : Session}
    (hd : n.directory.Sound) (ha : n.directory.active = some (id, slot))
    (hs : (n.directory.session slot).reset true now = .ok s) :
    Directory.Turns excused judged n.directory (n.directory.update slot s).closed := by
  have hu := Directory.Turns.update hd (by trivial) (Session.perform_reset hs)
  refine (hu.plain rfl rfl).closed fun id' slot' ha' => .inr ?_
  cases ha.symm.trans ha'
  exact (Session.reset_ok hs).1

theorem Starts.turns (hd : n.directory.Sound) (h : Starts n c ids n' p) :
    Directory.Turns (endsFatal p = true) (fun slot => ∃ n₁ w, Claims n c n₁ w ∧ n.Judged w slot)
      n.directory n'.directory := by
  cases h with
  | refused | looked => exact .refl hd
  | called hc _ hs =>
    obtain ⟨hm, hf, hj⟩ := single?_plain hc
    exact (Directory.Turns.update hd hm hs).plain hf hj
  | announced hc _ _ hs =>
    obtain ⟨hm, hf, hj⟩ := announced?_plain hc
    exact (Directory.Turns.update hd hm hs).plain hf hj
  | sent _ hg hs =>
    exact begun_turns hd hg (by trivial) rfl rfl (Session.perform_beginAsSender hs)
  | joined _ hg hs =>
    exact begun_turns hd hg (by trivial) rfl rfl (Session.perform_beginInvited hs)
  | unused hg => exact unused_turns hd hg
  | left ha hs => exact left_turns hd ha hs
  | swept =>
    rcases Directory.sweep_cases n.directory _ n.config.maxIdleSecs none with
      h | ⟨id, slot, ha, -, ⟨s, hs, h⟩ | h⟩
    · rw [withSessions, h]
      exact .refl hd
    · rw [withSessions, h]
      exact left_turns hd ha hs
    · rw [withSessions, h]
      exact (Directory.Turns.update (c := .flag) hd (by trivial) rfl).plain rfl rfl
  | claimed hc hp => exact (hc.turns hd hp).mono (fun h => h) fun _ hj => ⟨_, _, hc, hj⟩

end Node

/-! ### Paths -/

/-- Jobs and sessions are as they should be. -/
structure Process.Sound (ms : List Moment) (w : Process) : Prop where
  jobs : w.JobsSound ms
  directory : w.node.directory.Sound

theorem Process.start_sound (config : Config) : (start config).Sound [] :=
  ⟨start_jobsSound config, Directory.empty_sound _⟩

namespace Moment

variable {ms : List Moment} {m : Moment}

/-- A command ends here with the verdict that the deposits in a slot passed their check, in the epoch
in which it claimed. -/
def Judges (ms : List Moment) (m : Moment) (slot : Slot) : Prop :=
  ∃ c, Underway (ms ++ [m]) m.job c
    (.verify slot (m.before.session slot).epoch (.mk (.done (.ok .accepted))))

theorem rest?_append {n n' : Node} {js : List Job} {c : Node.Command} {ids : List SessionId}
    {p : Program Node.interface (Except Error Node.Reply)} :
    (Moment.mk ⟨n, js⟩ (.start c) ids ⟨n', js ++ [⟨c, p⟩]⟩).rest? = some p := by
  simp [rest?, job]

theorem rest?_set {n n' : Node} {js : List Job} {i : Nat} {j : Job} {c : Node.Command}
    {q : Node.Request} {a : q.Answer} {ids : List SessionId}
    {p : Program Node.interface (Except Error Node.Reply)} (hj : js[i]? = some j) :
    (Moment.mk ⟨n, js⟩ (.resume i q a) ids ⟨n', js.set i ⟨c, p⟩⟩).rest? = some p := by
  have hlt : i < js.length := (List.getElem?_eq_some_iff.1 hj).1
  simp [rest?, job, hlt]

theorem Acts.turns (h : m.Acts ms) (hd : m.before.node.directory.Sound) :
    Directory.Turns (m.isFatal = true) (m.Judges ms) m.before.node.directory
      m.after.node.directory := by
  cases h with
  | start h =>
    refine (Node.Starts.turns hd h).mono (fun he => ?_) fun slot hj => ?_
    · rw [isFatal, rest?_append]
      exact he
    · obtain ⟨n₁, w, hc, rfl⟩ := hj
      exact ⟨_, .begun rfl hc⟩
  | resume hu hj ha h =>
    refine (Node.Proceeds.turns hd h).mono (fun he => ?_) fun slot hw => ?_
    · rw [isFatal, rest?_set hj]
      exact he
    · subst hw
      exact ⟨_, hu.answered conversation_resume ha⟩

theorem Happens.sound (h : m.Happens) (hs : m.before.Sound ms) : m.after.Sound (ms ++ [m]) :=
  have ha := h.acts hs.jobs
  ⟨ha.jobsSound hs.jobs, (ha.turns hs.directory).sound⟩

end Moment

theorem Path.sound {config : Config} {ms : List Moment} {w : Process}
    (h : Path (.start config) ms w) : w.Sound ms := by
  induction h with
  | refl => exact Process.start_sound config
  | snoc _ hm ih => exact hm.sound ih

end EscrowMix
