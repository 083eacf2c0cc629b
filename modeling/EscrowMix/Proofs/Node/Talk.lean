import EscrowMix.Proofs.Node.Verification
import EscrowMix.Proofs.Session.Facts

/-!
What a node says and hears. A segment starts with at most one message from another node, lets at most
one session say, hear or begin something, and ends with messages that hold nothing but facts of that
session, or its invitations.
-/

namespace EscrowMix

open Node (Command Reply Wait Claims Starts Settles Proceeds)
open Session (Quiet Converses Begins Call)

namespace Node

/-- The message from another node that a command takes; the others are local. -/
def Command.message? : Command → Option PeerMessage
  | .onInvite _ id role schedule fees _ => some (.invite id role schedule fees)
  | .onAddressAndKey _ id role address key => some (.addressAndKey id role address key)
  | .onDepositNotice id role deposit => some (.depositNotice id role deposit)
  | .onSignatureRound id round candidate => some (.signatureRound id round candidate)
  | .onCommit id final => some (.commit id final)
  | .onCancel id => some (.cancel id)
  | _ => none

/-- The messages that a command ends with; one that fails or waits has none. -/
def posted : Program interface (Except Error Reply) → List PeerMessage
  | .done (.ok reply) => reply.outbound.map (·.message)
  | _ => []

/-- The command ended well. -/
def succeeds : Program interface (Except Error Reply) → Bool
  | .done (.ok _) => true
  | _ => false

end Node

namespace Directory

variable {d d' d₁ : Directory} {slot slot' : Slot} {s : Session} {id : SessionId} {now : UInt64}

/-- No session holds a fact more than before. -/
def Silent (d d' : Directory) : Prop := ∀ slot, (d.session slot).Quiet (d'.session slot)

theorem Silent.refl (d : Directory) : d.Silent d := fun _ => .refl _

theorem silent_update (h : (d.session slot).Quiet s) : d.Silent (d.update slot s) := by
  intro slot'
  rw [session_update]
  split
  · next he => exact he.1 ▸ h
  · exact .refl _

/-- A session that has not begun can stand anywhere. -/
theorem Silent.opened (h : d.Silent d') : d.Silent (d'.opened id now) := by
  intro slot
  rcases Nat.lt_trichotomy slot d'.sessions.length with hlt | rfl | hgt
  · rw [session_opened_of_lt hlt]
    exact h slot
  · rw [session_opened_self]
    exact .forgets rfl
  · have hle : (d'.opened id now).sessions.length ≤ slot := by
      rw [length_opened]
      exact hgt
    rw [session_of_length_le hle]
    exact .forgets rfl

theorem reset_silent (hs : (d.session slot).reset true now = .ok s) : d.Silent (d.update slot s) := by
  obtain ⟨-, rfl⟩ := Session.reset_ok hs
  exact silent_update (.forgets rfl)

theorem Vacated.silent (h : Vacated d id now d₁) : d.Silent d₁ := by
  cases h with
  | free | finished => exact .refl d
  | cleared _ _ _ hs => exact reset_silent hs

theorem getOrCreate_silent {evicted : Option Eviction}
    (h : d.getOrCreate id now = .ok ((slot, evicted), d')) : d.Silent d' := by
  rcases getOrCreate_ok h with ⟨-, rfl⟩ | ⟨d₁, hv, -, rfl⟩
  · exact .refl _
  · exact hv.silent.opened

/-- The slot of an enrolled session was handed out, and the session has the identifier. -/
theorem getOrCreate_slot (hd : d.Sound) {evicted : Option Eviction}
    (h : d.getOrCreate id now = .ok ((slot, evicted), d')) :
    slot < d'.sessions.length ∧ (d'.session slot).id = id ∧ (d'.session slot).Consistent := by
  rcases getOrCreate_ok h with ⟨ha, rfl⟩ | ⟨d₁, hv, rfl, rfl⟩
  · exact ⟨(hd.active _ _ ha).1, (hd.active _ _ ha).2, hd.consistent _⟩
  · rw [← hv.length_eq, length_opened, session_opened_self]
    exact ⟨Nat.lt_succ_self _, rfl, Session.fresh_consistent _ _ _⟩

/-- Whoever is enrolled, the others stay as they are. -/
theorem enrolled_rest {evicted : Option Eviction}
    (h : d.getOrCreate id now = .ok ((slot, evicted), d')) (s : Session) :
    ∀ slot', slot' ≠ slot → (d.session slot').Quiet ((d'.update slot s).session slot') := by
  intro slot' hne
  rw [session_update_ne hne]
  exact getOrCreate_silent h slot'

theorem Silent.dropped (h : d.Silent d') : d.Silent (d'.drop id).2 := by
  rcases drop_cases d' id with ⟨-, he⟩ | ⟨-, he⟩ <;> rw [he]
  · exact h
  · exact h

theorem sweep_silent (d : Directory) (now maxIdle : UInt64) (locked : Option Slot) :
    d.Silent (d.sweep now maxIdle locked).2 := by
  rcases sweep_cases d now maxIdle locked with h | ⟨id, slot, -, -, ⟨s, hs, h⟩ | h⟩ <;> rw [h]
  · exact .refl d
  · exact reset_silent hs
  · exact silent_update (Session.flag_same _ _).quiet

end Directory

namespace Node

/-- What a segment does with the sessions and the messages of a node, given the message that it
starts with, the identifiers that it draws, whether it ends well, and what is posted then. -/
inductive Talks (heard : Option PeerMessage) (drawn : List SessionId) (ok : Bool)
    (out : List PeerMessage) (d d' : Directory) : Prop
  /-- One session goes on, and what is posted are facts that it holds. -/
  | goesOn {slot : Slot} (h : (d.session slot).Converses heard (d'.session slot))
      (hrest : ∀ slot', slot' ≠ slot → (d.session slot').Quiet (d'.session slot'))
      (hposted : ∀ msg ∈ out, msg.isNotice = true ∨ (d'.session slot).Holds msg) :
      Talks heard drawn ok out d d'
  /-- A session begins on an invitation. -/
  | invited {slot : Slot} {role : Role} {s : Session} (hs : d'.session slot = s)
      (hb : s.Begins role) (hheard : heard = some (.invite s.id role s.schedule s.fees))
      (hok : ok = true)
      (hrest : ∀ slot', slot' ≠ slot → (d.session slot').Quiet (d'.session slot'))
      (hposted : ∀ msg ∈ out, msg.isNotice = true) : Talks heard drawn ok out d d'
  /-- A session begins under an identifier that was drawn for it. -/
  | sent {slot : Slot} {notices : List PeerMessage} {s : Session} (hs : d'.session slot = s)
      (hb : s.Begins .sender) (hdrawn : drawn = [s.id])
      (hrest : ∀ slot', slot' ≠ slot → (d.session slot').Quiet (d'.session slot'))
      (hnotices : ∀ msg ∈ notices, msg.isNotice = true)
      (hposted : out = notices ++ s.invitations) : Talks heard drawn ok out d d'

variable {n n' n₁ : Node} {c : Command} {ids : List SessionId} {w : Wait}
  {p : Program interface (Except Error Reply)} {d d' d₁ : Directory} {slot : Slot} {s : Session}
  {heard : Option PeerMessage} {ok : Bool} {out : List PeerMessage}

theorem Talks.of_silent (h : d.Silent d') (hp : ∀ msg ∈ out, msg.isNotice = true) :
    Talks heard ids ok out d d' :=
  @goesOn heard ids ok out d d' 0 (.quiet (h 0)) (fun slot _ => h slot) fun msg hm => .inl (hp msg hm)

theorem Talks.of_update (hlt : slot < d.sessions.length)
    (h : (d.session slot).Converses heard s)
    (hp : ∀ msg ∈ out, msg.isNotice = true ∨ s.Holds msg) :
    Talks heard ids ok out d (d.update slot s) := by
  refine @goesOn heard ids ok out d (d.update slot s) slot ?_ (fun slot' hne => ?_) ?_
  · rw [Directory.session_update_self hlt]
    exact h
  · rw [Directory.session_update_ne hne]
    exact .refl _
  · rw [Directory.session_update_self hlt]
    exact hp

/-- A segment after a change that matters to no session. -/
theorem Talks.after (hsame : ∀ slot, (d.session slot).Same (d₁.session slot))
    (h : Talks heard ids ok out d₁ d') : Talks heard ids ok out d d' := by
  cases h with
  | goesOn h hrest hp =>
    exact .goesOn ((hsame _).thenConverses h) (fun slot' hne => (hsame _).thenQuiet (hrest slot' hne))
      hp
  | invited hs hb hheard hok hrest hp =>
    exact .invited hs hb hheard hok (fun slot' hne => (hsame _).thenQuiet (hrest slot' hne)) hp
  | sent hs hb hdrawn hrest hn hp =>
    exact .sent hs hb hdrawn (fun slot' hne => (hsame _).thenQuiet (hrest slot' hne)) hn hp

/-! ### Commands that wait -/

/-- The session that the messages of a waiting command are about. -/
def Wait.sessionId? : Wait → Option SessionId
  | .sign id .. | .commit id .. => some id
  | _ => none

theorem Wait.Answered.sessionId?_eq {w w' : Wait} {q : Request} {a : q.Answer}
    (h : w.Answered q a w') : w'.sessionId? = w.sessionId? := by
  cases h <;> rfl

theorem Wait.After.sessionId?_eq {w w' : Wait} {log : List interface.Exchange}
    (h : w.After log w') : w'.sessionId? = w.sessionId? ∧ w'.slot = w.slot := by
  cases h <;> exact ⟨rfl, rfl⟩

theorem Claims.active (h : Claims n c n₁ w) : ∃ id, n.directory.active = some (id, w.slot) ∧
    ∀ id', w.sessionId? = some id' → id' = id := by
  cases h with
  | derive ha | verify ha | follow ha => exact ⟨_, ha, nofun⟩
  | sign ha | commit ha =>
    refine ⟨_, ha, fun id' he => ?_⟩
    cases he
    rfl

theorem posted_program {w : Wait} (h : w.IsOpen) : posted w.program = [] := by
  cases w with
  | derive slot epoch rest =>
    obtain ⟨q, next, hr⟩ := h
    obtain rfl : rest = .mk (.ask q next) := hr
    rfl
  | verify slot epoch rest =>
    obtain ⟨q, next, hr⟩ := h
    obtain rfl : rest = .mk (.ask q next) := hr
    rfl
  | sign id slot round epoch targets rest =>
    obtain ⟨q, next, hr⟩ := h
    obtain rfl : rest = .mk (.ask q next) := hr
    rfl
  | commit id slot epoch tx rest =>
    obtain ⟨q, next, hr⟩ := h
    obtain rfl : rest = .mk (.ask q next) := hr
    rfl
  | follow slot epoch tx rest =>
    obtain ⟨q, next, hr⟩ := h
    obtain rfl : rest = .mk (.ask q next) := hr
    rfl

theorem posted_toAll {targets : List (Role × PeerId)} {message msg : PeerMessage}
    (h : msg ∈ posted (.done (.ok (.messages (Outbound.toAll targets message))))) :
    msg = message := by
  obtain ⟨out, ho, rfl⟩ := List.mem_map.1 h
  obtain ⟨target, -, rfl⟩ := List.mem_map.1 ho
  rfl

/-- A call that ends a command; only if it succeeds something is posted. -/
theorem Talks.of_answer {α : Type} {answer : Except Error α} {f : α → Reply}
    (hlt : slot < d.sessions.length) (h : (d.session slot).Converses none s)
    (hf : ∀ a, answer = .ok a → ∀ msg ∈ posted (.done (.ok (f a))),
      msg.isNotice = true ∨ s.Holds msg) :
    Talks heard ids (succeeds (.done (answer.map f))) (posted (.done (answer.map f))) d
      (d.update slot s) := by
  refine .of_update hlt h.anyway ?_
  cases answer with
  | error e => exact nofun
  | ok a => exact hf a rfl

/-- The end of a command that waited, as long as its slot still has the session that it is about. -/
theorem Settles.talks {r : Except Error Reply} (hd : n.directory.Sound)
    (hlt : w.slot < n.directory.sessions.length)
    (hid : ∀ id, w.sessionId? = some id → (n.directory.session w.slot).id = id)
    (h : Settles n w n' r) :
    Talks heard ids (succeeds (.done r)) (posted (.done r)) n.directory n'.directory := by
  cases h with
  | @derived slot epoch escrow now answer s hs =>
    have hc := Session.perform_converses (hd.consistent slot) (by rfl) (by rfl) hs
    exact .of_answer hlt hc fun _ _ => nofun
  | @verified slot epoch verdict now answer s hs =>
    have hc := Session.perform_converses (hd.consistent slot) (by rfl) (by rfl) hs
    exact .of_answer hlt hc fun _ _ => nofun
  | @signed id slot round epoch targets candidate count now answer s hs =>
    have hs' : (n.directory.session slot).completeSignature ⟨.signature round, epoch⟩ candidate
      count now = (answer, s) := hs
    obtain ⟨hc, hfact⟩ := Session.completeSignature_tells (hd.consistent slot) hs'
    have hcons : s.Consistent := (hd.consistent slot).performed (by exact ⟨round, rfl⟩) hs
    refine .of_answer hlt hc fun n hn msg hmsg => ?_
    rw [posted_toAll hmsg, ← hid id rfl]
    exact .inr (hcons.holds (hfact n hn))
  | @committed id slot epoch tx targets now answer s hs =>
    have hc := Session.perform_converses (hd.consistent slot) (by rfl) (by rfl) hs
    refine .of_answer hlt hc fun _ _ msg hmsg => ?_
    rw [posted_toAll hmsg]
    exact .inl rfl
  | @followed slot epoch tx now answer s hs =>
    have hc := Session.perform_converses (hd.consistent slot) (by rfl) (by rfl) hs
    exact .of_answer hlt hc fun _ _ => nofun
  | released =>
    have hs : (n.directory.session w.slot).perform 0 (.release w.ticket) =
      (.ok (), (n.directory.session w.slot).release w.ticket) := rfl
    have hc := Session.perform_converses (hd.consistent w.slot) (by trivial) (by rfl) hs
    exact .of_update hlt hc.anyway nofun

theorem Proceeds.talks (hd : n.directory.Sound) (hlt : w.slot < n.directory.sessions.length)
    (hid : ∀ id, w.sessionId? = some id → (n.directory.session w.slot).id = id)
    (h : Proceeds n w n' p) : Talks heard ids (succeeds p) (posted p) n.directory n'.directory := by
  rcases h with ⟨hw, rfl, rfl⟩ | ⟨r, h, rfl⟩
  · exact .of_silent (.refl _) (by rw [posted_program hw]; exact nofun)
  · exact h.talks hd hlt hid

theorem Claims.talks (hd : n.directory.Sound) (hc : Claims n c n₁ w) (hp : Proceeds n₁ w n' p) :
    Talks heard ids (succeeds p) (posted p) n.directory n'.directory := by
  obtain ⟨id, ha, hid⟩ := hc.active
  obtain ⟨hlt, hid'⟩ := hd.active id w.slot ha
  obtain ⟨-, t, -, -, rfl, now, call, answer, hm, -, hs⟩ := hc.pending
  have hsame := fun slot => (n.directory.pending_same w.slot (some t) slot).1
  have hu := Directory.Turns.update hd hm hs
  refine .after hsame (hp.talks hu.sound (by rw [put_directory, Directory.length_update]; exact hlt)
    fun id'' he => ?_)
  rw [put_directory, (hsame w.slot).id, hid id'' he]
  exact hid'

/-! ### Commands that do not -/

theorem single?_news {id : SessionId} {call : Call} (h : c.single? = some (id, call)) :
    call.begins = false ∧ call.news? id = c.message? := by
  cases c <;> cases h <;> exact ⟨rfl, rfl⟩

theorem cancellations_notice {out : List Outbound} (h : ∀ m ∈ out, ∃ id, m.message = .cancel id) :
    ∀ msg ∈ out.map (·.message), msg.isNotice = true := by
  intro msg hmsg
  obtain ⟨m, hm, rfl⟩ := List.mem_map.1 hmsg
  obtain ⟨id, he⟩ := h m hm
  rw [he]
  rfl

/-- A call that every counterpart is told about leaves the fact that they are told. -/
theorem announced?_tells {id : SessionId} {call : Call} {message : Role → PeerMessage}
    {answer : call.Answer} {s' : Session} {now : UInt64} {role : Role}
    (hc : c.announced? = some (id, call, message)) (h : s.Consistent) (hid : s.id = id)
    (hrole : s.role = some role) (hs : s.perform now call = (.ok answer, s')) :
    s.Converses none s' ∧ s'.Holds (message role) := by
  have hs' : s'.Consistent := h.performed (announced?_plain hc).1 hs
  subst hid
  cases c with
  | setOwnKey =>
    cases hc
    obtain ⟨hc, own, ho, hf⟩ := Session.setOwnKey_tells h (Session.orKeep_eq_ok.1 hs)
    cases ho.symm.trans hrole
    exact ⟨hc, hs'.holds hf⟩
  | recordOwnDeposit =>
    cases hc
    obtain ⟨hc, own, ho, hf⟩ := Session.recordOwnDeposit_tells h (Session.orKeepUnit_eq_ok.1 hs)
    cases ho.symm.trans hrole
    exact ⟨hc, hs'.holds hf⟩
  | _ => cases hc

theorem Starts.talks (hd : n.directory.Sound) (h : Starts n c ids n' p) :
    Talks c.message? ids (succeeds p) (posted p) n.directory n'.directory := by
  cases h with
  | refused => exact .of_silent (.refl _) fun _ hmsg => absurd hmsg List.not_mem_nil
  | looked hr =>
    refine .of_silent (.refl _) ?_
    rw [posted, hr]
    exact fun _ hmsg => absurd hmsg List.not_mem_nil
  | @called _ id call slot now answer s reply hc ha hs hr =>
    obtain ⟨hb, hnews⟩ := single?_news hc
    obtain ⟨hlt, rfl⟩ := hd.active id slot ha
    have hcv := Session.perform_converses (hd.consistent slot) (single?_plain hc).1 hb hs
    rw [hnews] at hcv
    refine .of_update hlt hcv ?_
    rw [posted, hr]
    exact fun _ hmsg => absurd hmsg List.not_mem_nil
  | @announced _ id call message slot now answer s role targets hc ha hrole hs =>
    obtain ⟨hlt, hid⟩ := hd.active id slot ha
    obtain ⟨hcv, hholds⟩ := announced?_tells hc (hd.consistent slot) hid hrole hs
    refine .of_update hlt hcv.anyway fun msg hmsg => ?_
    rw [posted_toAll hmsg]
    exact .inr hholds
  | @sent destinations each constraints mixer guarantor id slot now d schedule s evicted out
      hschedule hg hs hout =>
    obtain ⟨hlt, rfl, hcons⟩ := Directory.getOrCreate_slot hd hg
    obtain ⟨hb, hid, rfl⟩ := Session.beginAsSender_begins hcons hs
    refine .sent (Directory.session_update_self hlt) hb ?_ (Directory.enrolled_rest hg s)
      (cancellations_notice hout) ?_
    · rw [hid]
    · rw [Session.invitations, hid]
      exact List.map_append
  | @joined from_ id role schedule fees constraints slot now d s evicted out hoffer hg hs hout =>
    obtain ⟨hlt, rfl, hcons⟩ := Directory.getOrCreate_slot hd hg
    obtain ⟨hb, hid, rfl, rfl⟩ := Session.beginInvited_begins hcons hs
    refine .invited (Directory.session_update_self hlt) hb ?_ rfl (Directory.enrolled_rest hg s)
      (cancellations_notice hout)
    rw [hid]
    rfl
  | unused hg =>
    have hq := Directory.getOrCreate_silent hg
    refine .of_silent ?_ fun _ hmsg => absurd hmsg List.not_mem_nil
    rw [withSessions]
    split
    · exact hq.dropped
    · exact hq
  | left ha hs hout => exact .of_silent (Directory.reset_silent hs) (cancellations_notice hout)
  | swept =>
    refine .of_silent (Directory.sweep_silent _ _ _ _) ?_
    exact fun _ hmsg => absurd hmsg List.not_mem_nil
  | claimed hc hp => exact hc.talks hd hp

end Node

/-! ### Moments -/

namespace Moment

/-- The message from another node that the moment starts with. -/
def heard? (m : Moment) : Option PeerMessage :=
  match m.move with
  | .start c => c.message?
  | .resume .. => none

/-- The command ends well. -/
def succeeds (m : Moment) : Bool := m.rest?.any Node.succeeds

/-- The messages that the command ends with. -/
def posted (m : Moment) : List PeerMessage := (m.rest?.map Node.posted).getD []

/-- What a moment does with the sessions and the messages of its node. -/
def Talks (m : Moment) : Prop :=
  Node.Talks m.heard? m.drawn m.succeeds m.posted m.before.node.directory m.after.node.directory

end Moment

variable {config : Config} {ms : List Moment} {w : Process} {m : Moment}

/-- A command that waits still has the session of its claim in its slot. -/
theorem Path.underway {i : Nat} {c : Command} {v : Wait} (h : Path (.start config) ms w)
    (hu : Underway ms i c v) : v.slot < w.node.directory.sessions.length ∧
      ∀ id, v.sessionId? = some id → (w.session v.slot).id = id := by
  obtain @⟨ms₁, ms₂, claim, n, w₀, v, rfl, -, -, hc, ha⟩ := hu
  obtain ⟨h₁, hm, h₂⟩ := h.split
  obtain ⟨hid, hslot⟩ := ha.sessionId?_eq
  obtain ⟨id, hactive, hsame⟩ := hc.active
  obtain ⟨hlt, hid'⟩ := h₁.sound.directory.active id w₀.slot hactive
  obtain ⟨hl, hlt'⟩ := h₁.later ((Path.refl.snoc hm).append h₂) hlt
  rw [hslot]
  refine ⟨hlt', fun id' he => ?_⟩
  rw [hl.id, hsame id' (hid ▸ he)]
  exact hid'

theorem Path.talks (h : Path (.start config) ms m.before) (hm : m.Happens) : m.Talks := by
  have hd := h.sound.directory
  cases hm.acts h.jobsSound with
  | @start n n' js c ids p hs =>
    rw [Moment.Talks, Moment.succeeds, Moment.posted, Moment.rest?_append]
    exact hs.talks hd
  | @resume n n' js i c q a v v' p hu hj ha hp =>
    rw [Moment.Talks, Moment.succeeds, Moment.posted, Moment.rest?_set hj]
    obtain ⟨hlt, hid⟩ := h.underway hu
    rw [← ha.slot_eq] at hlt hid
    refine hp.talks hd hlt fun id he => hid id ?_
    rw [← ha.sessionId?_eq]
    exact he

end EscrowMix
