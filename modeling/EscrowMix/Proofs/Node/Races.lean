import EscrowMix.Proofs.Node.Atomicity
import EscrowMix.Proofs.Session.Facts

/-!
Commands that race. While a command waits for its collaborator, others run, and may leave it with a
stale ticket. At most one waiting command has a ticket that is honoured, and then by the active
session. Each of the others lost its session for good: that was reset and dropped, and a session
that was dropped never begins again. What is left of such a command changes no session and nothing in
the directory. A command that waits for a broadcast never loses its session, since a fully signed
distribution is in the way of a reset.

    the waiting command          its session            the directory
    has its ticket honoured      in progress, busy      has it as the active one
    has a stale ticket           has not begun          has another one, or none
-/

namespace EscrowMix

open Node (Command Reply Request Wait Claims Starts Settles Proceeds Running Goes)

/-! ### Collaborators have failures of their own -/

/-- Whatever it is answered, the program fails with one of these errors only. -/
def Program.FailsOnly {I : Interface} {ε α : Type} (P : ε → Prop) : Program I (Except ε α) → Prop
  | .done (.ok _) => True
  | .done (.error e) => P e
  | .ask _ next => ∀ a, (next a).FailsOnly P

theorem Program.After.failsOnly {I : Interface} {ε α : Type} {P : ε → Prop}
    {p p' : Program I (Except ε α)} {log : List I.Exchange} (h : p.After log p')
    (hp : p.FailsOnly P) : p'.FailsOnly P := by
  induction h with
  | refl => exact hp
  | @ask _ _ a _ _ _ ih => exact ih (hp a)

namespace Node

variable {n n' n₁ : Node} {c : Command} {w w' : Wait} {ids : List SessionId} {slot : Slot}
  {p : Program interface (Except Error Reply)} {r : Except Error Reply} {q : Request} {a : q.Answer}

/-- The deposits are checked. -/
def Wait.isVerification : Wait → Bool
  | .verify .. => true
  | _ => false

/-- The transaction that is to be broadcast. -/
def Wait.tx? : Wait → Option Bytes
  | .commit _ _ _ tx _ | .follow _ _ tx _ => some tx
  | _ => none

theorem Wait.transition_of_tx? {tx : Bytes} (h : w.tx? = some tx) :
    w.ticket.transition = .commit := by
  cases w with
  | commit | follow => rfl
  | derive | verify | sign => cases h

/-- What is asked of a collaborator does not fail in the way in which a stale ticket does. -/
def Wait.IsFrank : Wait → Prop
  | .derive _ _ rest => rest.run.FailsOnly (· ≠ .concurrentTransition)
  | .verify .. => True
  | .sign _ _ _ _ _ rest => rest.run.FailsOnly (· ≠ .concurrentTransition)
  | .commit _ _ _ _ rest => rest.run.FailsOnly (· ≠ .concurrentTransition)
  | .follow _ _ _ rest => rest.run.FailsOnly (· ≠ .concurrentTransition)

theorem failsOnly_ask (q : Wallet.Request) :
    (Wallet.ask q).run.FailsOnly (· ≠ .concurrentTransition) := by
  intro a
  cases a with
  | error e => exact nofun
  | ok v => trivial

theorem failsOnly_plan (plan : SigningPlan) :
    plan.run.run.FailsOnly (· ≠ .concurrentTransition) := by
  cases plan with
  | build inputs outputs constraints =>
    intro a
    cases a with
    | error e => exact nofun
    | ok v => trivial
  | sign candidate key inputs outputs =>
    have hrest : ∀ isMatch : Bool, (if isMatch then Wallet.ask (.sign candidate key)
        else throw SigningPlan.mismatch).run.FailsOnly (· ≠ .concurrentTransition) := by
      intro isMatch
      cases isMatch with
      | true => exact failsOnly_ask _
      | false => exact nofun
    intro a
    cases a with
    | error e => exact nofun
    | ok isMatch => exact hrest isMatch

theorem Claims.isFrank (h : Claims n c n₁ w) : w.IsFrank := by
  cases h with
  | derive | commit | follow => exact failsOnly_ask _
  | verify => trivial
  | sign => exact failsOnly_plan _

theorem Wait.Answered.isFrank (h : Wait.Answered w q a w') (hw : w.IsFrank) : w'.IsFrank := by
  cases h with
  | derive a | sign a | commit a | follow a => exact hw a
  | verify => trivial

theorem Wait.After.isFrank {log : List interface.Exchange} (h : Wait.After w log w')
    (hw : w.IsFrank) : w'.IsFrank := by
  cases h with
  | derive h | sign h | commit h | follow h => exact h.failsOnly hw
  | verify => trivial

theorem Wait.Answered.ticket_eq (h : Wait.Answered w q a w') : w'.ticket = w.ticket := by
  cases h <;> rfl

theorem Wait.Answered.tx?_eq (h : Wait.Answered w q a w') : w'.tx? = w.tx? := by
  cases h <;> rfl

/-! ### Waiting commands and their sessions -/

/-- The command is of the kind that waits in this way, for the session with this identifier. -/
inductive Command.Waits : Command → SessionId → Wait → Prop
  | derive {id : SessionId} {slot : Slot} {epoch : Nat} {rest : Wallet.Asking Multisig} :
    Waits (.deriveMultisig id) id (.derive slot epoch rest)
  | verify {id : SessionId} {slot : Slot} {epoch : Nat} {rest : Ledger.Asking Verdict} :
    Waits (.verifyDeposits id) id (.verify slot epoch rest)
  | sign {id : SessionId} {slot : Slot} {round : UInt8} {epoch : Nat} {targets : Targets}
    {rest : Wallet.Asking (Bytes × UInt8)} :
    Waits (.contributeSignature id) id (.sign id slot round epoch targets rest)
  | commit {id : SessionId} {slot : Slot} {epoch : Nat} {tx : Bytes} {rest : Wallet.Asking Unit} :
    Waits (.commit id) id (.commit id slot epoch tx rest)
  | follow {id : SessionId} {final : Bytes} {slot : Slot} {epoch : Nat} {tx : Bytes}
    {rest : Wallet.Asking Unit} : Waits (.onCommit id final) id (.follow slot epoch tx rest)

/-- The ticket is honoured, by the active session, and what is to be broadcast is its
distribution. -/
structure Live (n : Node) (w : Wait) : Prop where
  active : ∃ id, n.directory.active = some (id, w.slot)
  honours : (n.directory.session w.slot).honours w.ticket = true
  candidate : ∀ tx, w.tx? = some tx → (n.directory.session w.slot).record.candidate = some tx

/-- The session was given up and is not the active one any more. There is nothing to broadcast. -/
structure Lost (n : Node) (w : Wait) : Prop where
  lt : w.slot < n.directory.sessions.length
  ready : (n.directory.session w.slot).Ready
  status : (n.directory.session w.slot).status = .notBegun
  inactive : ∀ id, n.directory.active ≠ some (id, w.slot)
  unsent : w.tx? = none

/-- An answer is no news of the session. -/
theorem Wait.Answered.live_iff (h : Wait.Answered w q a w') : n.Live w' ↔ n.Live w := by
  constructor <;> rintro ⟨hactive, hh, hc⟩ <;> constructor <;>
    simp only [h.slot_eq, h.ticket_eq, h.tx?_eq] at * <;> assumption

theorem Wait.Answered.lost_iff (h : Wait.Answered w q a w') : n.Lost w' ↔ n.Lost w := by
  constructor <;> rintro ⟨hlt, hr, hst, hi, hu⟩ <;> constructor <;>
    simp only [h.slot_eq, h.tx?_eq] at * <;> assumption

theorem Claims.waits (h : Claims n c n₁ w) :
    ∃ id, n.directory.active = some (id, w.slot) ∧ c.Waits id w := by
  cases h with
  | derive ha => exact ⟨_, ha, .derive⟩
  | verify ha => exact ⟨_, ha, .verify⟩
  | sign ha => exact ⟨_, ha, .sign⟩
  | commit ha => exact ⟨_, ha, .commit⟩
  | follow ha => exact ⟨_, ha, .follow⟩

theorem Wait.Answered.waits {id : SessionId} (h : Wait.Answered w q a w') (hw : c.Waits id w) :
    c.Waits id w' := by
  cases h <;> cases hw <;> constructor

/-- A transition is claimed only while none is outstanding. -/
theorem Claims.idle (h : Claims n c n₁ w) : (n.directory.session w.slot).pending = none := by
  cases h with
  | derive ha hs => exact (Session.claimMultisig_ok hs).1
  | verify ha hs => exact (Session.claimVerification_ok hs).1
  | sign ha hs => exact (Session.claimSignature_ok hs).1
  | commit ha hs | follow ha hs => exact (Session.claimCommit_ok hs).1

/-- Only the distribution of the session is broadcast. -/
theorem Claims.candidate (h : Claims n c n₁ w) {tx : Bytes} (ht : w.tx? = some tx) :
    (n.directory.session w.slot).record.candidate = some tx := by
  cases h with
  | derive | verify | sign => cases ht
  | commit ha hs | follow ha hs =>
    cases ht
    exact (Session.claimCommit_ok hs).2.2.1

/-- After its claim, the ticket is honoured. -/
theorem Claims.live (hd : n.directory.Sound) (h : Claims n c n₁ w) : n₁.Live w := by
  have hcandidate : ∀ tx, w.tx? = some tx →
      (n.directory.session w.slot).record.candidate = some tx := fun _ => h.candidate
  obtain ⟨id, t, ha, ht, rfl, -⟩ := h.pending
  have hlt := (hd.active _ _ ha).1
  refine ⟨⟨id, ha⟩, ?_, ?_⟩
  · rw [put, Directory.session_update_self hlt, ht]
    exact Session.honours_iff.2 ⟨rfl, rfl⟩
  · rw [put, Directory.session_update_self hlt]
    exact hcandidate

/-! ### A session whose ticket is honoured -/

section

variable (hd : n.directory.Sound) (hl : n.Live w)
include hl

theorem Live.busy : (n.directory.session w.slot).pending = some w.ticket.transition :=
  (Session.honours_iff.1 hl.honours).1

/-- Whoever acts on the active session acts on this one. -/
theorem Live.slot_eq {id : SessionId} (ha : n.directory.active = some (id, slot)) :
    w.slot = slot := by
  obtain ⟨id', ha'⟩ := hl.active
  cases ha.symm.trans ha'
  rfl

/-- Nothing else is begun meanwhile. -/
theorem Live.refuses {id : SessionId} {call : Session.Call} {now : UInt64} {answer : call.Answer}
    {s : Session} (ha : n.directory.active = some (id, slot)) (hc : call.needsIdle = true)
    (hs : (n.directory.session slot).perform now call = (.ok answer, s)) : False := by
  have hp := hl.busy
  rw [hl.slot_eq ha] at hp
  cases (Session.perform_busy hp hc now).symm.trans hs

include hd

theorem Live.lt : w.slot < n.directory.sessions.length := by
  obtain ⟨id, ha⟩ := hl.active
  exact (hd.active _ _ ha).1

/-- The session whose distribution is to be broadcast has it with all its signatures. -/
theorem Live.status {tx : Bytes} (ht : w.tx? = some tx) :
    (n.directory.session w.slot).status = .distTxComplete :=
  (hd.consistent w.slot).pending _ (hl.busy.trans (congrArg some (Wait.transition_of_tx? ht)))

theorem Live.begun : (n.directory.session w.slot).status ≠ .notBegun :=
  (hd.consistent w.slot).begun_of_awaits hl.busy

theorem Live.isInProgress : (n.directory.session w.slot).isInProgress = true := by
  have hawaits := (hd.consistent w.slot).pending _ hl.busy
  unfold Session.isInProgress Status.isInProgress
  cases hst : (n.directory.session w.slot).status with
  | notBegun => exact absurd hst (hl.begun hd)
  | complete =>
    generalize w.ticket.transition = t at hawaits
    cases t with
    | deriveMultisig | verifyDeposits | commit => cases hst.symm.trans hawaits
    | signature round =>
      have hround := hawaits.1
      rw [hst] at hround
      cases hround
  | _ => rfl

/-- No other session takes its place. -/
theorem Live.getOrCreate {id : SessionId} {now : UInt64} {evicted : Option Eviction}
    {d : Directory} (hg : n.directory.getOrCreate id now = .ok ((slot, evicted), d)) :
    d = n.directory ∧ slot = w.slot := by
  obtain ⟨id', ha⟩ := hl.active
  rcases Directory.getOrCreate_ok hg with ⟨hactive, rfl⟩ | ⟨d₁, hv, -, -⟩
  · cases hactive.symm.trans ha
    exact ⟨rfl, rfl⟩
  · cases hv with
    | free hnone => cases hnone.symm.trans ha
    | finished hactive _ hover =>
      cases hactive.symm.trans ha
      cases hover.symm.trans (hl.isInProgress hd)
    | cleared hactive _ hidle _ =>
      cases hactive.symm.trans ha
      rw [Session.isBusy, hl.busy] at hidle
      cases hidle

end

/-- A reset takes the session away from the command that waits with it. -/
theorem Live.left (hd : n.directory.Sound) (hl : n.Live w) {id : SessionId} {now : UInt64}
    {s : Session} (ha : n.directory.active = some (id, slot))
    (hs : (n.directory.session slot).reset true now = .ok s) :
    (n.withSessions (n.directory.update slot s).closed).Lost w := by
  obtain rfl := hl.slot_eq ha
  have hself : (n.directory.update w.slot s).session w.slot = s :=
    Directory.session_update_self (hl.lt hd)
  obtain ⟨hreset, rfl⟩ := Session.reset_ok hs
  refine ⟨Nat.lt_of_lt_of_eq (hl.lt hd) Directory.length_update.symm, ?_, ?_, nofun, ?_⟩
  · rw [withSessions, Directory.closed_session, hself]
    exact fun _ => ⟨rfl, rfl⟩
  · rw [withSessions, Directory.closed_session, hself]
    rfl
  · cases ht : w.tx? with
    | none => rfl
    | some tx => exact absurd (hl.status hd ht) (Session.canReset_iff.1 hreset).1

/-- What stands aside leaves the ticket honoured. -/
theorem Live.put_aside (hl : n.Live w) (hlt : w.slot < n.directory.sessions.length)
    {call : Session.Call} (hc : call.isAside = true) (now : UInt64) :
    (n.put w.slot ((n.directory.session w.slot).perform now call).2).Live w := by
  obtain ⟨hsame, hp, he⟩ := Session.perform_aside_kept hc (n.directory.session w.slot) now
  obtain ⟨hpending, hepoch⟩ := Session.honours_iff.1 hl.honours
  refine ⟨hl.active, ?_, fun tx ht => ?_⟩
  · rw [put, Directory.session_update_self hlt]
    exact Session.honours_iff.2 ⟨hp.trans hpending, he.trans hepoch⟩
  · rw [put, Directory.session_update_self hlt, hsame.record]
    exact hl.candidate tx ht

theorem single?_aside_or_busy {id : SessionId} {call : Session.Call}
    (h : c.single? = some (id, call)) : call.isAside = true ∨ call.needsIdle = true := by
  cases c <;> cases h <;> first | exact .inl rfl | exact .inr rfl

theorem announced?_needsIdle {id : SessionId} {call : Session.Call} {message : Role → PeerMessage}
    (h : c.announced? = some (id, call, message)) : call.needsIdle = true := by
  cases c <;> cases h <;> rfl

/-- While a ticket is honoured, a command that is told does not wait itself, and leaves the ticket
honoured or takes the session away. -/
theorem Live.starts (hd : n.directory.Sound) (hl : n.Live w) (h : Starts n c ids n' p) :
    (∃ r, p = .done r) ∧ ((∀ w, n.Live w → n'.Live w) ∨ ∀ w, n.Live w → n'.Lost w) := by
  cases h with
  | refused | looked => exact ⟨⟨_, rfl⟩, .inl fun _ hl => hl⟩
  | @called c id call slot now answer s reply hc ha hs hr =>
    refine ⟨⟨_, rfl⟩, .inl fun w hl => ?_⟩
    rcases single?_aside_or_busy hc with haside | hbusy
    · obtain rfl := hl.slot_eq ha
      have hput := hl.put_aside (hl.lt hd) haside now
      rwa [hs] at hput
    · exact (hl.refuses ha hbusy hs).elim
  | announced hc ha hrole hs => exact (hl.refuses ha (announced?_needsIdle hc) hs).elim
  | sent hschedule hg hs hout =>
    obtain ⟨rfl, rfl⟩ := hl.getOrCreate hd hg
    cases (Session.beginAsSender_ok hs).1.symm.trans hl.busy
  | joined hoffer hg hs hout =>
    obtain ⟨rfl, rfl⟩ := hl.getOrCreate hd hg
    cases (Session.beginInvited_ok hs).1.symm.trans hl.busy
  | unused hg =>
    obtain ⟨rfl, rfl⟩ := hl.getOrCreate hd hg
    rw [if_neg (hl.begun hd)]
    exact ⟨⟨_, rfl⟩, .inl fun _ hl => hl⟩
  | left ha hs hout => exact ⟨⟨_, rfl⟩, .inr fun _ hl => hl.left hd ha hs⟩
  | @swept now outcomes =>
    refine ⟨⟨_, rfl⟩, .inl fun w hl => ?_⟩
    rcases n.directory.sweep_cases now n.config.maxIdleSecs none with
      hsame | ⟨id, slot, ha, hidle, -⟩
    · rw [hsame]
      exact hl
    · obtain rfl := hl.slot_eq ha
      rw [Session.isBusy, hl.busy] at hidle
      cases hidle
  | claimed hc hp =>
    obtain ⟨id, -, ha, -⟩ := hc.pending
    have hidle := hc.idle
    rw [← hl.slot_eq ha, hl.busy] at hidle
    cases hidle

/-! ### A session that was lost -/

theorem Lost.not_honours (hl : n.Lost w) : ¬(n.directory.session w.slot).honours w.ticket = true := by
  intro hh
  have hp := (Session.honours_iff.1 hh).1
  rw [(hl.ready hl.status).2] at hp
  cases hp

theorem Lost.put (hl : n.Lost w) (hne : w.slot ≠ slot) (s : Session) : (n.put slot s).Lost w := by
  have hs : (n.put slot s).directory.session w.slot = n.directory.session w.slot :=
    Directory.session_update_ne hne
  refine ⟨Nat.lt_of_lt_of_eq hl.lt Directory.length_update.symm, ?_, ?_, hl.inactive, hl.unsent⟩
  · rw [hs]
    exact hl.ready
  · rw [hs]
    exact hl.status

/-- What happens to the active session is of no concern. -/
theorem Lost.put_active (hl : n.Lost w) {id : SessionId}
    (ha : n.directory.active = some (id, slot)) (s : Session) : (n.put slot s).Lost w :=
  hl.put (fun he => hl.inactive id (he ▸ ha)) s

theorem Lost.closed (hl : n.Lost w) : (n.withSessions n.directory.closed).Lost w :=
  ⟨hl.lt, hl.ready, hl.status, nofun, hl.unsent⟩

theorem Lost.getOrCreate (hl : n.Lost w) {id : SessionId} {now : UInt64}
    {evicted : Option Eviction} {d : Directory}
    (hg : n.directory.getOrCreate id now = .ok ((slot, evicted), d)) :
    (n.withSessions d).Lost w ∧ w.slot ≠ slot := by
  rcases Directory.getOrCreate_ok hg with ⟨hactive, rfl⟩ | ⟨d₁, hv, rfl, rfl⟩
  · exact ⟨hl, fun he => hl.inactive id (he ▸ hactive)⟩
  · have hv' : (n.withSessions d₁).Lost w := by
      cases hv with
      | free | finished => exact hl
      | cleared ha => exact hl.put_active ha _
    have hlt : w.slot < d₁.sessions.length := hv'.lt
    have hne : w.slot ≠ n.directory.sessions.length := Nat.ne_of_lt hl.lt
    have hs : (d₁.opened id now).session w.slot = d₁.session w.slot :=
      Directory.session_opened_of_lt hlt
    refine ⟨⟨?_, ?_, ?_, fun id' ha => ?_, hl.unsent⟩, hne⟩
    · exact Nat.lt_of_lt_of_eq (Nat.lt_succ_of_lt hlt) Directory.length_opened.symm
    · rw [withSessions, hs]
      exact hv'.ready
    · rw [withSessions, hs]
      exact hv'.status
    · have ha : some (id, d₁.sessions.length) = some (id', w.slot) := ha
      exact Nat.ne_of_gt hlt (Prod.mk.inj (Option.some.inj ha)).2

/-- Settling with an honoured ticket is a call on that session. -/
theorem Settles.put (h : Settles n w n' r) : ∃ s, n' = n.put w.slot s := by
  obtain ⟨_, _, _, s, -, -, -, hn, -⟩ := h.call
  exact ⟨s, hn⟩

theorem Proceeds.lost {v : Wait} (h : Proceeds n v n' p) (hl : n.Lost w) (hne : w.slot ≠ v.slot) :
    n'.Lost w := by
  rcases h with ⟨-, rfl, -⟩ | ⟨r, h, -⟩
  · exact hl
  · obtain ⟨s, rfl⟩ := h.put
    exact hl.put hne s

/-- A session that was lost stays lost, whatever a node is told. -/
theorem Lost.starts (hl : n.Lost w) (h : Starts n c ids n' p) : n'.Lost w := by
  cases h with
  | refused | looked => exact hl
  | called hc ha | announced hc ha => exact hl.put_active ha _
  | sent hschedule hg | joined hoffer hg =>
    obtain ⟨hlost, hne⟩ := hl.getOrCreate hg
    exact hlost.put hne _
  | unused hg =>
    obtain ⟨hlost, -⟩ := hl.getOrCreate hg
    split
    · rename_i d _ _ _
      rcases d.drop_cases _ with ⟨-, h⟩ | ⟨-, h⟩ <;> rw [h]
      · exact hlost.closed
      · exact hlost
    · exact hlost
  | left ha => exact (hl.put_active ha _).closed
  | @swept now outcomes =>
    rcases n.directory.sweep_cases now n.config.maxIdleSecs none with
      h | ⟨id, slot, ha, -, ⟨s, -, h⟩ | h⟩ <;> rw [h]
    · exact hl
    · exact (hl.put_active ha s).closed
    · exact hl.put_active ha _
  | claimed hc hp =>
    obtain ⟨id, t, ha, -, rfl, -⟩ := hc.pending
    exact hp.lost (hl.put_active ha _) fun he => hl.inactive id (he ▸ ha)

/-- With a stale ticket nothing is settled. -/
theorem Settles.of_not_honours (h : Settles n w n' r)
    (hh : ¬(n.directory.session w.slot).honours w.ticket = true) : n' = n := by
  have hkept : ∀ {call : Session.Call} {now answer s}, call.ticket? = some w.ticket →
      (n.directory.session w.slot).perform now call = (answer, s) → n.put w.slot s = n := by
    intro call now answer s ht hs
    have hsame := Session.perform_unhonoured hh ht now
    rw [hs] at hsame
    rw [show s = n.directory.session w.slot from hsame, put_session]
  cases h with
  | derived hs | verified hs | signed hs | committed hs | followed hs => exact hkept rfl hs
  | released =>
    rw [Session.release_of_not_honours hh, put_session]

/-- A command that waits after its first segment has its ticket honoured. -/
theorem Starts.waits (hd : n.directory.Sound) (h : Starts n c ids n' p) : (∃ r, p = .done r) ∨
    ∃ id w, w.IsOpen ∧ p = w.program ∧ Claims n c n' w ∧ c.Waits id w ∧
      n.directory.active = some (id, w.slot) ∧ n'.Live w := by
  cases h with
  | claimed hc hp =>
    rcases hp with ⟨ho, rfl, rfl⟩ | ⟨r, -, rfl⟩
    · obtain ⟨id, ha, hw⟩ := hc.waits
      exact .inr ⟨id, _, ho, rfl, hc, hw, ha, hc.live hd⟩
    · exact .inl ⟨r, rfl⟩
  | refused | looked | called | announced | sent | joined | unused | left | swept =>
    exact .inl ⟨_, rfl⟩

end Node

/-! ### All jobs of a node -/

theorem Underway.isFrank {ms : List Moment} {i : Nat} {c : Command} {w : Wait}
    (h : Underway ms i c w) : w.IsFrank := by
  obtain ⟨-, -, -, hc, hw⟩ := h
  exact hw.isFrank hc.isFrank

section

variable {config : Config} {ms : List Moment} {m : Moment} {w : Process} {n n' : Node} {i : Nat}
  {j : Job} {turn turn' : Prop}

/-- A job has ended, or is underway and waits: with an honoured ticket if it is its turn, and else
without its session. -/
def Job.Stands (ms : List Moment) (n : Node) (i : Nat) (turn : Prop) (j : Job) : Prop :=
  (∃ r, j.rest = .done r) ∨ ∃ id w, w.IsOpen ∧ j.rest = w.program ∧ Underway ms i j.command w ∧
    j.command.Waits id w ∧ (n.directory.session w.slot).id = id ∧
    ((turn ∧ n.Live w) ∨ (¬turn ∧ n.Lost w))

/-- It is the turn of one job at most. -/
def Process.TakesTurns (ms : List Moment) (w : Process) : Prop :=
  ∃ owner : Option Nat, ∀ (i : Nat) (j : Job), w.jobs[i]? = some j →
    j.Stands ms w.node i (owner = some i)

/-- What is known of sessions carries over to a job that waits for one of them. -/
theorem Job.Stands.map (h : j.Stands ms n i turn) (hd : n.directory.Sound)
    (hm : conversation i [m] = []) (hid : ∀ slot, slot < n.directory.sessions.length →
      (n'.directory.session slot).id = (n.directory.session slot).id)
    (hlive : ∀ w, turn → n.Live w → (turn' ∧ n'.Live w) ∨ (¬turn' ∧ n'.Lost w))
    (hlost : ∀ w, ¬turn → n.Lost w → ¬turn' ∧ n'.Lost w) : j.Stands (ms ++ [m]) n' i turn' := by
  rcases h with hdone | ⟨id, w, ho, hp, hu, hw, he, ⟨ht, hl⟩ | ⟨ht, hl⟩⟩
  · exact .inl hdone
  · exact .inr ⟨id, w, ho, hp, hu.later hm, hw, (hid _ (hl.lt hd)).trans he, hlive w ht hl⟩
  · exact .inr ⟨id, w, ho, hp, hu.later hm, hw, (hid _ hl.lt).trans he, .inr (hlost w ht hl)⟩

theorem job_of_concat {js : List Job} {k : Job} (h : (js ++ [k])[i]? = some j) :
    js[i]? = some j ∨ (i = js.length ∧ j = k) := by
  rcases Nat.lt_trichotomy i js.length with hi | rfl | hi
  · rw [List.getElem?_append_left hi] at h
    exact .inl h
  · rw [List.getElem?_concat_length] at h
    exact .inr ⟨rfl, (Option.some.inj h).symm⟩
  · rw [List.getElem?_eq_none (by rw [List.length_append]; exact hi)] at h
    cases h

theorem job_of_set {js : List Job} {k : Job} {i' : Nat} (h : (js.set i k)[i']? = some j) :
    (i' = i ∧ j = k) ∨ (i' ≠ i ∧ js[i']? = some j) := by
  by_cases hi : i' = i
  · subst hi
    have hlt : i' < (js.set i' k).length := (List.getElem?_eq_some_iff.1 h).1
    rw [List.length_set] at hlt
    rw [List.getElem?_set_self hlt] at h
    exact .inl ⟨rfl, (Option.some.inj h).symm⟩
  · rw [List.getElem?_set_ne (Ne.symm hi)] at h
    exact .inr ⟨hi, h⟩

/-- A command is told. -/
theorem Process.TakesTurns.start {js : List Job} {c : Command} {ids : List SessionId}
    {p : Program Node.interface (Except Error Reply)} (h : TakesTurns ms ⟨n, js⟩)
    (hd : n.directory.Sound) (hs : Starts n c ids n' p)
    (hid : ∀ slot, slot < n.directory.sessions.length →
      (n'.directory.session slot).id = (n.directory.session slot).id) :
    TakesTurns (ms ++ [⟨⟨n, js⟩, .start c, ids, ⟨n', js ++ [⟨c, p⟩]⟩⟩]) ⟨n', js ++ [⟨c, p⟩]⟩ := by
  obtain ⟨owner, hjobs⟩ := h
  have hold : ∀ (i : Nat) (j : Job), js[i]? = some j → j.Stands ms n i (owner = some i) := hjobs
  -- The job whose turn it is keeps its turn, or loses its session; else the new job may get a turn.
  by_cases hbusy : ∃ w, n.Live w
  · obtain ⟨w, hl⟩ := hbusy
    obtain ⟨hdone, hmoves⟩ := hl.starts hd hs
    have hnew : ∃ owner' : Option Nat, ∀ (i : Nat) (j : Job), js[i]? = some j →
        j.Stands (ms ++ [⟨⟨n, js⟩, .start c, ids, ⟨n', js ++ [⟨c, p⟩]⟩⟩]) n' i
          (owner' = some i) := by
      rcases hmoves with hmoves | hmoves
      · refine ⟨owner, fun i j hj =>
          (hold i j hj).map hd conversation_start hid (fun w ht hl => ?_) fun w ht hl => ?_⟩
        · exact .inl ⟨ht, hmoves w hl⟩
        · exact ⟨ht, hl.starts hs⟩
      · refine ⟨none, fun i j hj =>
          (hold i j hj).map hd conversation_start hid (fun w _ hl => ?_) fun w _ hl => ?_⟩
        · exact .inr ⟨nofun, hmoves w hl⟩
        · exact ⟨nofun, hl.starts hs⟩
    obtain ⟨owner', hnew⟩ := hnew
    refine ⟨owner', fun i j hj => ?_⟩
    rcases job_of_concat hj with hj | ⟨-, rfl⟩
    · exact hnew i j hj
    · exact .inl hdone
  · refine ⟨some js.length, fun i j hj => ?_⟩
    rcases job_of_concat hj with hj | ⟨rfl, rfl⟩
    · have hne : ¬(some js.length = some i) := fun he =>
        absurd (List.getElem?_eq_some_iff.1 hj).1 (Nat.not_lt.2 (Nat.le_of_eq (Option.some.inj he)))
      refine (hold i j hj).map hd conversation_start hid (fun w _ hl => absurd ⟨w, hl⟩ hbusy)
        fun w _ hl => ?_
      exact ⟨hne, hl.starts hs⟩
    · rcases hs.waits hd with hdone | ⟨id, w, ho, hp, hc, hw, ha, hl⟩
      · exact .inl hdone
      · obtain ⟨hlt, he⟩ := hd.active _ _ ha
        exact .inr ⟨id, w, ho, hp, .begun rfl hc, hw, (hid _ hlt).trans he, .inl ⟨rfl, hl⟩⟩

/-- A job that waited goes on. -/
theorem Process.TakesTurns.resume {js : List Job} {c : Command} {q : Request}
    {next : q.Answer → Program Node.interface (Except Error Reply)} {a : q.Answer}
    {ids : List SessionId} {p : Program Node.interface (Except Error Reply)}
    (h : TakesTurns ms ⟨n, js⟩) (hd : n.directory.Sound) (hj : js[i]? = some ⟨c, .ask q next⟩)
    (hg : Goes n (next a) ids n' p)
    (hid : ∀ slot, slot < n.directory.sessions.length →
      (n'.directory.session slot).id = (n.directory.session slot).id) :
    TakesTurns (ms ++ [⟨⟨n, js⟩, .resume i q a, ids, ⟨n', js.set i ⟨c, p⟩⟩⟩])
      ⟨n', js.set i ⟨c, p⟩⟩ := by
  obtain ⟨owner, hjobs⟩ := h
  have hold : ∀ (i : Nat) (j : Job), js[i]? = some j → j.Stands ms n i (owner = some i) := hjobs
  rcases hold i _ hj with ⟨r, hr⟩ | ⟨id, w, ho, hp, hu, hw, he, hturn⟩
  · cases hr
  obtain ⟨w', ha, hnext⟩ := Wait.answered_of_program ho hp.symm a
  rw [hnext] at hg
  obtain ⟨-, hproceeds⟩ := Node.goes_wait hg
  have hother : ∀ {i'}, i' ≠ i → conversation i'
      [⟨⟨n, js⟩, .resume i q a, ids, ⟨n', js.set i ⟨c, p⟩⟩⟩] = [] :=
    fun hne => conversation_other hne.symm
  refine ⟨owner, fun i' j hj' => ?_⟩
  rcases hproceeds with ⟨ho', rfl, rfl⟩ | ⟨r, hs, rfl⟩
  · rcases job_of_set hj' with ⟨rfl, rfl⟩ | ⟨hne, hj'⟩
    · refine .inr ⟨id, w', ho', rfl, hu.answered conversation_resume ha, ha.waits hw, ?_, ?_⟩
      · rw [ha.slot_eq]
        exact he
      · rwa [ha.live_iff, ha.lost_iff]
    · exact (hold i' j hj').map hd (hother hne) (fun _ _ => rfl) (fun _ ht hl => .inl ⟨ht, hl⟩)
        fun _ ht hl => ⟨ht, hl⟩
  · rcases job_of_set hj' with ⟨rfl, rfl⟩ | ⟨hne, hj'⟩
    · exact .inl ⟨r, rfl⟩
    refine (hold i' j hj').map hd (hother hne) hid (fun v ht' hl' => ?_) fun v ht' hlost => ?_
    · rcases hturn with ⟨ht, -⟩ | ⟨-, hl⟩
      · exact absurd (Option.some.inj (ht'.symm.trans ht)) hne
      · rw [hs.of_not_honours (ha.lost_iff.2 hl).not_honours]
        exact .inl ⟨ht', hl'⟩
    · refine ⟨ht', ?_⟩
      rcases hturn with ⟨-, hl⟩ | ⟨-, hl⟩
      · obtain ⟨id', hactive⟩ := hl.active
        refine Proceeds.lost (.inr ⟨r, hs, rfl⟩) hlost fun he => hlost.inactive id' ?_
        rw [he, ha.slot_eq]
        exact hactive
      · rw [hs.of_not_honours (ha.lost_iff.2 hl).not_honours]
        exact hlost

theorem Path.takesTurns (h : Path (.start config) ms w) : w.TakesTurns ms := by
  induction h with
  | refl => exact ⟨none, nofun⟩
  | @snoc ms m h hm ih =>
    have hsound := h.sound
    have hturns := (hm.acts h.jobsSound).turns hsound.directory
    have hid : ∀ slot, slot < m.before.node.directory.sessions.length →
        (m.after.node.directory.session slot).id = (m.before.node.directory.session slot).id :=
      fun slot hlt => (hturns.evolves slot hlt).id_eq
    cases hm with
    | start hc hg => exact ih.start hsound.directory (Node.goes_start hc hg) hid
    | resume hj hg => exact ih.resume hsound.directory hj hg hid

end

/-! ### What is left of a command with a stale ticket -/

namespace Site

open Node.Running (call)

variable {α β : Type} {s s' : Site} {slot : Slot} {c : Session.Call} {t : Ticket} {e : Error}

theorem runs_askWallet_failsOnly {P : Error → Prop} {p : Wallet.Asking α}
    (hp : p.run.FailsOnly P)
    (h : s.Runs (Node.askWallet p).run (.ok (.error e)) s') : P e := by
  obtain ⟨p, rfl⟩ : ∃ p', ExceptT.mk p' = p := ⟨p.run, rfl⟩
  induction p with
  | done outcome =>
    obtain ⟨he, -⟩ := runs_done h
    cases he
    exact hp
  | ask q next ih =>
    obtain ⟨a, s₁, rfl, hrest⟩ := runs_ask h
    exact ih a (hp a) hrest

theorem runs_askLedger_fails {p : Ledger.Asking α}
    (h : s.Runs (Node.askLedger p).run (.ok (.error e)) s') : ∃ e', e = .ledger e' := by
  obtain ⟨p, rfl⟩ : ∃ p', ExceptT.mk p' = p := ⟨p.run, rfl⟩
  induction p with
  | done outcome =>
    obtain ⟨he, -⟩ := runs_done h
    rcases outcome with e' | v <;> cases he
    exact ⟨e', rfl⟩
  | ask q next ih =>
    obtain ⟨a, s₁, rfl, hrest⟩ := runs_ask h
    exact ih a hrest

/-- The failure of a collaborator is passed on. -/
theorem runs_giveBack {e' : Error} {r : Except Error α}
    (h : s.Runs (Node.giveBack slot t e' : Running α).run r s') : r = .error e' := by
  obtain ⟨answer, s₁, hcall, h⟩ := runs_bind h
  obtain ⟨env, rfl, -⟩ := runs_call hcall
  exact (runs_done h).1

/-- A command that ends for its ticket had an answer from the wallet. -/
theorem runs_afterWallet {p : Wallet.Asking α} {f : Except Error α → Running β}
    (hp : p.run.FailsOnly (· ≠ .concurrentTransition))
    (hf : ∀ e : Error, e ≠ .concurrentTransition →
      ¬s.Runs (f (.error e)).run (.error .concurrentTransition) s')
    (h : s.Runs (Node.askWallet p >>= f).run (.error .concurrentTransition) s') :
    ∃ v, s.Runs (f (.ok v)).run (.error .concurrentTransition) s' := by
  rcases runs_bind_error h with h | ⟨outcome, s₁, hask, h⟩
  · obtain ⟨⟨_, hr⟩, -⟩ := runs_askWallet h
    cases hr
  · obtain ⟨-, rfl⟩ := runs_askWallet hask
    rcases outcome with e' | v
    · exact absurd h (hf e' (runs_askWallet_failsOnly (P := (· ≠ .concurrentTransition)) hp hask))
    · exact ⟨v, h⟩

/-- A completion that fails for its ticket changes no session. -/
theorem runs_stale_completion (c : Session.Call) {f : c.Answer → Running β}
    (hc : c.redeemed? = some t) (hm : c.IsMatched) (hf : ∀ a, Sure (f a))
    (h : s.Runs (call slot c >>= f).run (.error .concurrentTransition) s') :
    ¬(s.session slot).honours t = true ∧
      s' = ⟨s.node, if Node.isSaved c (.error .concurrentTransition) then
        kept s.store [Node.persist (s.session slot)] else s.store⟩ := by
  rcases runs_bind_error h with h | ⟨a, s₁, -, h⟩
  · obtain ⟨env, he, rfl⟩ := runs_call h
    have hh : ¬(s.session slot).honours t = true := fun hh =>
      Session.perform_honoured hh hc hm env.now he.symm
    have hs := Session.perform_refused hh hc env.now
    have hout : s.node.perform env (.call slot none c) =
        ⟨(.error .concurrentTransition, s.session slot), s.node,
          if Node.isSaved c (.error .concurrentTransition) then [Node.persist (s.session slot)]
          else []⟩ := by
      show s.node.callOn env.now slot c = _
      unfold Node.callOn
      rw [show s.node.directory.session slot = s.session slot from rfl, hs]
      exact congrArg (Node.Outcome.mk _ · _) (Node.put_session s.node slot)
    refine ⟨hh, ?_⟩
    rw [stepped, hout]
    split <;> rfl
  · exact absurd h (hf a s₁ _ s')

variable {w : Wait}

/-- A command that finds its ticket stale changes no session. Only the check of the deposits still
hands its session to the store. -/
theorem runs_stale (hw : w.IsFrank) (h : s.Runs w.program (.error .concurrentTransition) s') :
    ¬(s.session w.slot).honours w.ticket = true ∧
      s' = ⟨s.node, if w.isVerification then kept s.store [Node.persist (s.session w.slot)]
        else s.store⟩ := by
  have hpassed : ∀ {α : Type} {slot t s' s₁} (e : Error), e ≠ .concurrentTransition →
      ¬Site.Runs s₁ (Node.giveBack slot t e : Running α).run (.error .concurrentTransition) s' :=
    fun e he h => he (Except.error.inj (runs_giveBack h)).symm
  cases w with
  | derive slot epoch rest =>
    obtain ⟨escrow, h⟩ := runs_afterWallet hw hpassed h
    exact runs_stale_completion (.completeMultisig ⟨.deriveMultisig, epoch⟩ escrow) rfl rfl
      (fun _ => sure_pure _) h
  | verify slot epoch rest =>
    rcases runs_bind_error h with h | ⟨outcome, s₁, hask, h⟩
    · obtain ⟨⟨_, hr⟩, -⟩ := runs_askLedger h
      cases hr
    · obtain ⟨-, rfl⟩ := runs_askLedger hask
      rcases outcome with e | verdict
      · obtain ⟨e', rfl⟩ := runs_askLedger_fails hask
        exact absurd h (hpassed _ nofun)
      · exact runs_stale_completion (.completeVerification ⟨.verifyDeposits, epoch⟩ verdict) rfl rfl
          (fun _ => sure_pure _) h
  | sign id slot round epoch targets rest =>
    obtain ⟨⟨candidate, count⟩, h⟩ := runs_afterWallet hw hpassed h
    exact runs_stale_completion (.completeSignature ⟨.signature round, epoch⟩ candidate count) rfl
      ⟨_, rfl⟩ (fun _ => sure_pure _) h
  | commit id slot epoch tx rest =>
    have hback : ∀ e : Error, e ≠ .concurrentTransition → ¬s.Runs (Node.settleBroadcast slot
        ⟨.commit, epoch⟩ tx (.error e) >>= Node.tellCommit id slot).run
          (.error .concurrentTransition) s' := by
      intro e he h
      rcases runs_bind_error h with h | ⟨_, _, h, -⟩
      · exact hpassed e he h
      · cases runs_giveBack h
    obtain ⟨_, h⟩ := runs_afterWallet hw hback h
    rcases runs_bind_error h with h | ⟨_, s₁, -, h⟩
    · exact runs_stale_completion (.completeCommit ⟨.commit, epoch⟩) rfl rfl
        (fun _ => sure_pure _) h
    · exact absurd h (sure_bind (sure_request _) (fun _ => sure_pure _) s₁ _ s')
  | follow slot epoch tx rest =>
    have hback : ∀ e : Error, e ≠ .concurrentTransition → ¬s.Runs (Node.settleBroadcast slot
        ⟨.commit, epoch⟩ tx (.error e) >>= fun _ => pure (Reply.messages [])).run
          (.error .concurrentTransition) s' := by
      intro e he h
      rcases runs_bind_error h with h | ⟨_, _, h, -⟩
      · exact hpassed e he h
      · cases runs_giveBack h
    obtain ⟨_, h⟩ := runs_afterWallet hw hback h
    rcases runs_bind_error h with h | ⟨_, s₁, -, h⟩
    · exact runs_stale_completion (.completeCommit ⟨.commit, epoch⟩) rfl rfl
        (fun _ => sure_pure _) h
    · cases (runs_done h).1

end Site

namespace Node

variable {c : Command} {id : SessionId} {w : Wait}

theorem Command.Waits.isVerification (h : c.Waits id w) :
    w.isVerification = true ↔ c = .verifyDeposits id := by
  cases h <;> simp [Wait.isVerification]

theorem Lost.persist {n : Node} (hl : n.Lost w) :
    Node.persist (n.directory.session w.slot) = .remove (n.directory.session w.slot).id :=
  if_pos hl.status

end Node

/-- On every way of a node, a command that waits for its collaborator and then ends because its
ticket is stale leaves every session and the directory as the other commands left them, whichever
of them ran in between. A restart, which puts stored sessions into slots, is not among these. The
store too is left alone; only the check of the deposits still forgets the snapshot that is kept
under its identifier, and no other one. -/
theorem Path.unchanged_of_stale {config : Config} {ms : List Moment} {w : Process} {i : Nat}
    {c : Command} {q : Request} {next : q.Answer → Program Node.interface (Except Error Reply)}
    {a : q.Answer} {store : Store.Memory} {s' : Site} (h : Path (.start config) ms w)
    (hj : w.jobs[i]? = some ⟨c, .ask q next⟩)
    (hr : Site.Runs ⟨w.node, store⟩ (next a) (.error .concurrentTransition) s') :
    s'.node = w.node ∧ ((∀ id, c ≠ .verifyDeposits id) → s'.store = store) ∧
      ∀ id, c = .verifyDeposits id → s'.store = store.remove id := by
  obtain ⟨owner, hjobs⟩ := h.takesTurns
  rcases hjobs i _ hj with ⟨r, hdone⟩ | ⟨id, wait, ho, hp, hu, hw, hid, hturn⟩
  · cases hdone
  obtain ⟨wait', ha, hnext⟩ := Wait.answered_of_program ho hp.symm a
  rw [hnext] at hr
  obtain ⟨hstale, rfl⟩ := Site.runs_stale (ha.isFrank hu.isFrank) hr
  rw [ha.slot_eq, ha.ticket_eq] at hstale
  have hlost : w.node.Lost wait := by
    rcases hturn with ⟨-, hl⟩ | ⟨-, hl⟩
    · exact absurd hl.honours hstale
    · exact hl
  have hv := (ha.waits hw).isVerification
  refine ⟨rfl, fun hne => if_neg fun he => hne id (hv.1 he), fun id' he => ?_⟩
  subst he
  obtain rfl : id' = id := by cases hw; rfl
  have hpersist : Node.persist (w.node.directory.session wait'.slot) = .remove id' := by
    rw [ha.slot_eq, hlost.persist, hid]
  exact (if_pos (hv.2 rfl)).trans (congrArg (fun q => (store.perform q).2) hpersist)

/-! ### A verdict that comes too late -/

/-- How a job that waits ends in given circumstances, with nothing in between. -/
def Process.finish? (x : Circumstances) (w : Process) (store : Store.Memory) (i : Nat) :
    Option (Except Error Reply × Site) :=
  w.jobs[i]?.map fun j => j.rest.run (Site.answerIn x) ⟨w.node, store⟩

theorem Process.finish?_runs {x : Circumstances} {w : Process} {store : Store.Memory} {i : Nat}
    {c : Command} {q : Request} {r : Except Error Reply} {s' : Site}
    (hq : w.question? i = some (c, q)) (ha : q.isAwaited = true)
    (h : w.finish? x store i = some (r, s')) : ∃ next a, w.jobs[i]? = some ⟨c, .ask q next⟩ ∧
      Site.Runs ⟨w.node, store⟩ (next a) r s' := by
  obtain ⟨⟨c, rest⟩, hj, rfl, hrest⟩ := Process.question?_eq_some hq
  obtain ⟨next, rfl⟩ := Program.question?_eq_some hrest
  obtain ⟨j, hj', hrun⟩ := Option.map_eq_some_iff.1 h
  obtain rfl := Option.some.inj (hj.symm.trans hj')
  have hruns := Site.runs_run x (.ask q next) ⟨w.node, store⟩
  rw [hrun] at hruns
  obtain ⟨a, s₁, hanswers, hruns⟩ := Site.runs_ask hruns
  obtain rfl : s₁ = ⟨w.node, store⟩ := by
    cases q with
    | wallet | ledger => exact hanswers
    | clock | freshId | isConnected | store | step => cases ha
  exact ⟨next, a, hj, hruns⟩

namespace LateVerdict

open SigningMixer

/-- The Mixer is invited. -/
def invitation : Command :=
  .onInvite ⟨1⟩ sessionId .mixer ⟨[⟨⟨"payee"⟩, ⟨100000⟩⟩]⟩ Config.standard.feePolicy .none

/-- A setup up to the deposits, each of which gets a way back. -/
def setup : List Command :=
  [invitation, .attachPeer sessionId .guarantor ⟨3⟩, .setOwnKey sessionId ⟨"mixer"⟩ mixerKey,
    .onAddressAndKey ⟨1⟩ sessionId .sender ⟨"sender"⟩ senderKey,
    .onAddressAndKey ⟨3⟩ sessionId .guarantor ⟨"guarantor"⟩ guarantorKey,
    .deriveMultisig sessionId, .onDepositNotice sessionId .sender (deposit 1),
    .onDepositNotice sessionId .guarantor (deposit 3), .recordOwnDeposit sessionId (deposit 2),
    .markReclaimable sessionId .sender, .markReclaimable sessionId .mixer,
    .markReclaimable sessionId .guarantor]

/-- While the ledger is asked, the session is cancelled, and the same invitation comes again. -/
def meanwhile : List Command := [.onCancel sessionId, invitation]

/-- The setup, and the check of the deposits up to the first question to the ledger. -/
def turns : List Turn :=
  (setup.take 6).map .tell ++ .answer 5 :: (setup.drop 6).map .tell ++
    [.tell (.verifyDeposits sessionId)]

/-- All that happens until the ledger answers. -/
def moments : List Moment :=
  (Process.start .standard).play circumstances (turns ++ meanwhile.map .tell)

/-- The node when the ledger answers. -/
def raced : Process := (Process.start .standard).afterAll moments

/-- The node and its store before the ledger is asked; the claim is not handed to the store. -/
def asked : Site :=
  ⟨((Process.start .standard).afterAll ((Process.start .standard).play circumstances turns)).node,
    (Site.told circumstances ⟨(Process.start .standard).node, .empty⟩ setup).store⟩

/-- What the commands in between leave. -/
def found : Site := asked.told circumstances meanwhile

/-- The first thing that the ledger is asked. -/
def question : Request := .ledger (.confirmations (deposit 1).txid)

/-- The check of the deposits finds its ticket stale, and the store is empty afterwards. -/
theorem ends : ∃ next a s', raced.jobs[12]? = some ⟨.verifyDeposits sessionId, .ask question next⟩ ∧
    Site.Runs ⟨raced.node, found.store⟩ (next a) (.error .concurrentTransition) s' ∧
    s'.store.list = [] := by
  have hq : raced.question? 12 = some (.verifyDeposits sessionId, question) := by decide +kernel
  have hends : (raced.finish? circumstances found.store 12).map (fun o =>
      (failure? o.1, o.2.store.list)) = some (some .concurrentTransition, []) := by decide +kernel
  obtain ⟨⟨r, s'⟩, hfinish, hout⟩ := Option.map_eq_some_iff.1 hends
  obtain ⟨hr, hlist⟩ := Prod.mk.inj hout
  obtain ⟨next, a, hj, hruns⟩ := Process.finish?_runs hq rfl hfinish
  exact ⟨next, a, s', hj, failure?_eq_some.1 hr ▸ hruns, hlist⟩

theorem path : Path (.start .standard) moments raced := Process.play_path ..

end LateVerdict

open SigningMixer LateVerdict in
theorem Path.unchanged_of_late_verdict : ∃ next a s',
    raced.jobs[12]? = some ⟨.verifyDeposits sessionId, .ask question next⟩ ∧
      Site.Runs ⟨raced.node, found.store⟩ (next a) (.error .concurrentTransition) s' ∧
      s'.node = raced.node ∧ s'.store = found.store.remove sessionId := by
  obtain ⟨next, a, s', hj, hruns, -⟩ := ends
  obtain ⟨hnode, -, hstore⟩ := path.unchanged_of_stale hj hruns
  exact ⟨next, a, s', hj, hruns, hnode, hstore sessionId rfl⟩

open SigningMixer LateVerdict in
/-- The commands in between left the snapshot of the new session under the identifier of the old
one; what is left of the check of the deposits forgets it, although its ticket is stale. -/
theorem Path.late_verdict_forgets_snapshot :
    Path (.start .standard) LateVerdict.moments raced ∧ found.node = raced.node ∧
      raced.active = some (sessionId, 1) ∧ (raced.session 1).isInProgress = true ∧
      found.store.load sessionId = some (raced.session 1).toSnapshot ∧
      ∃ next a s', raced.jobs[12]? = some ⟨.verifyDeposits sessionId, .ask question next⟩ ∧
        Site.Runs ⟨raced.node, found.store⟩ (next a) (.error .concurrentTransition) s' ∧
        s'.store.list = [] :=
  ⟨path, by decide +kernel, by decide +kernel, by decide +kernel, by decide +kernel, ends⟩

end EscrowMix
