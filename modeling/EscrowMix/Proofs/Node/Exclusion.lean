import EscrowMix.Proofs.Node.Conduct
import EscrowMix.Proofs.Node.Histories
import EscrowMix.Proofs.Node.Signing
import EscrowMix.Proofs.Session.Lifecycle

/-!
One session at a time. A command that enters or leaves a session does so in several steps, and
relies on the directory to keep its active session in between. As long as no two such commands
overlap, the active session is the only one in progress, however all other commands run in between
the steps. Two that overlap can leave two sessions in progress.
-/

namespace EscrowMix

open Node (Command Request Step Reply Running Within)

/-! ### The session in progress is the active one -/

namespace Directory

variable {d d' d₁ : Directory} {id : SessionId} {slot : Slot} {s : Session} {now : UInt64}
  {c : Session.Call}

/-- Only the active session is in progress. -/
structure Single (d : Directory) : Prop where
  named : ∀ id slot, d.active = some (id, slot) → slot < d.sessions.length
  engaged : ∀ slot, (d.session slot).Engaged
  active : ∀ slot, (d.session slot).isInProgress = true → ∃ id, d.active = some (id, slot)

/-- No session is in progress. -/
structure Idle (d : Directory) : Prop where
  engaged : ∀ slot, (d.session slot).Engaged
  ended : ∀ slot, (d.session slot).isInProgress = false

/-- What happens to a directory while no command enters or leaves a session. -/
structure Meanwhile (d d' : Directory) : Prop where
  active : d'.active = d.active
  length : d.sessions.length ≤ d'.sessions.length
  engaged : ∀ slot, (d.session slot).Engaged → (d'.session slot).Engaged
  before : ∀ slot, (d.session slot).Engaged → (d'.session slot).isInProgress = true →
    (d.session slot).isInProgress = true

theorem Meanwhile.refl (d : Directory) : d.Meanwhile d :=
  ⟨rfl, Nat.le_refl _, fun _ h => h, fun _ _ h => h⟩

theorem Meanwhile.trans (h : d.Meanwhile d₁) (h' : d₁.Meanwhile d') : d.Meanwhile d' where
  active := h'.active.trans h.active
  length := Nat.le_trans h.length h'.length
  engaged slot he := h'.engaged slot (h.engaged slot he)
  before slot he hp := h.before slot he (h'.before slot (h.engaged slot he) hp)

/-- A call that begins no session. -/
theorem meanwhile_perform (d : Directory) (slot : Slot) (now : UInt64) (hc : c.begins = false) :
    d.Meanwhile (d.update slot ((d.session slot).perform now c).2) := by
  refine ⟨rfl, Nat.le_of_eq length_update.symm, fun slot' he => ?_, fun slot' he hp => ?_⟩
  · rw [session_update]
    split
    · next h =>
      rw [h.1] at he
      exact he.perform now c
    · exact he
  · rw [session_update] at hp
    split at hp
    · next h =>
      rw [h.1] at he ⊢
      exact he.inProgress_before hc hp
    · exact hp

theorem Single.meanwhile (h : d.Single) (hm : d.Meanwhile d') : d'.Single where
  named id slot ha := Nat.lt_of_lt_of_le (h.named id slot (hm.active ▸ ha)) hm.length
  engaged slot := hm.engaged slot (h.engaged slot)
  active slot hp := hm.active ▸ h.active slot (hm.before slot (h.engaged slot) hp)

theorem empty_single (fees : FeePolicy) : (empty fees).Single where
  named := nofun
  engaged _ := Session.fresh_engaged _ _ _
  active _ hp := nomatch hp

theorem Idle.closed (h : d.Idle) : d.closed.Single where
  named := nofun
  engaged := h.engaged
  active slot hp := nomatch (h.ended slot).symm.trans hp

/-- Nothing is in progress once the active session is not. -/
theorem Single.idle (h : d.Single)
    (hover : ∀ id slot, d.active = some (id, slot) → (d.session slot).isInProgress = false) :
    d.Idle where
  engaged := h.engaged
  ended slot := by
    cases hp : (d.session slot).isInProgress with
    | false => rfl
    | true =>
      obtain ⟨id, ha⟩ := h.active slot hp
      exact (hover id slot ha).symm.trans hp |>.symm

theorem Idle.activate (h : d.Idle) (hs : s.Engaged) : (d.activate s).2.Single where
  named id slot ha := by
    cases ha
    simp [Directory.activate]
  engaged slot := by
    rw [session_activate]
    split
    · exact hs
    · exact h.engaged slot
  active slot hp := by
    rw [session_activate] at hp
    split at hp
    · next he => exact ⟨s.id, by rw [he]; rfl⟩
    · cases (h.ended slot).symm.trans hp

/-- The session in the active slot may change in any way that leaves it engaged. -/
theorem Single.update (h : d.Single) (ha : d.active = some (id, slot)) (hs : s.Engaged) :
    (d.update slot s).Single where
  named id slot ha := Nat.lt_of_lt_of_eq (h.named id slot ha) length_update.symm
  engaged slot' := by
    rw [session_update]
    split
    · exact hs
    · exact h.engaged slot'
  active slot' hp := by
    rw [session_update] at hp
    split at hp
    · next he => exact ⟨id, by rw [he.1]; exact ha⟩
    · exact h.active slot' hp

theorem Single.perform (h : d.Single) (ha : d.active = some (id, slot)) (now : UInt64)
    (c : Session.Call) : (d.update slot ((d.session slot).perform now c).2).Single :=
  h.update ha ((h.engaged slot).perform now c)

/-- A reset of the active session leaves none in progress. -/
theorem Single.reset (h : d.Single) (ha : d.active = some (id, slot)) {keepLog : Bool}
    (hr : (d.session slot).reset keepLog now = .ok s) : (d.update slot s).Idle := by
  obtain ⟨-, rfl⟩ := Session.reset_ok hr
  refine (h.update ha (Session.cleared_engaged _ _ _)).idle fun id' slot' ha' => ?_
  obtain ⟨rfl, rfl⟩ := Prod.mk.inj (Option.some.inj (ha'.symm.trans ha))
  rw [session_update_self (h.named _ _ ha)]
  rfl

theorem Single.vacated (h : d.Single) (hv : d.Vacated id now d₁) : d₁.Idle := by
  cases hv with
  | free ha => exact h.idle fun id' slot ha' => nomatch ha.symm.trans ha'
  | finished ha _ hover =>
    refine h.idle fun id' slot ha' => ?_
    obtain ⟨rfl, rfl⟩ := Prod.mk.inj (Option.some.inj (ha'.symm.trans ha))
    exact hover
  | cleared ha _ _ hr => exact h.reset ha hr

theorem Single.getOrCreate (h : d.Single) {evicted : Option Eviction}
    (hr : d.getOrCreate id now = .ok ((slot, evicted), d')) :
    d'.Single ∧ d'.active = some (id, slot) := by
  rcases getOrCreate_ok hr with ⟨ha, rfl⟩ | ⟨d₁, hv, rfl, rfl⟩
  · exact ⟨h, ha⟩
  · refine ⟨(h.vacated hv).activate (Session.fresh_engaged _ _ _), ?_⟩
    rw [opened_active, hv.length_eq]

/-- A session from a store has nothing outstanding. -/
theorem Single.install (h : d.Single) {evicted : Option Eviction} (hs : s.pending = none)
    (hr : d.install s now = .ok ((slot, evicted), d')) : d'.Single := by
  have he : s.Engaged := fun t ht => nomatch hs.symm.trans ht
  rcases install_ok hr with ⟨ha, rfl⟩ | ⟨d₁, hv, rfl⟩
  · exact h.update ha he
  · exact (h.vacated hv).activate he

theorem Single.sweep (h : d.Single) (now maxIdle : UInt64) (locked : Option Slot) :
    (d.sweep now maxIdle locked).2.Single := by
  rcases d.sweep_cases now maxIdle locked with hd | ⟨id, slot, ha, -, ⟨s, hr, hd⟩ | hd⟩
  · rw [hd]
    exact h
  · rw [hd]
    exact (h.reset ha hr).closed
  · rw [hd]
    exact h.perform ha now .flag

/-- The active session may be dropped once it is not in progress. -/
theorem Single.drop (h : d.Single) (ha : d.active = some (id, slot))
    (hover : (d.session slot).isInProgress = false) (id' : SessionId) : (d.drop id').2.Single := by
  rcases d.drop_cases id' with ⟨-, hd⟩ | ⟨-, hd⟩
  · rw [hd]
    refine (h.idle fun id'' slot' ha' => ?_).closed
    obtain ⟨rfl, rfl⟩ := Prod.mk.inj (Option.some.inj (ha'.symm.trans ha))
    exact hover
  · rw [hd]
    exact h

end Directory

/-! ### Commands that neither enter nor leave a session -/

namespace Node

variable {α β : Type} {n n' n₁ : Node} {q : Request} {a : q.Answer} {c : Command} {id : SessionId}
  {slot : Slot}

/-- Whatever such a command asks for leaves the active session alone, and begins none. -/
theorem Answers.meanwhile {fair : Prop} {on : Option Slot} (h : n.Answers q a n')
    (hq : c.May fair on q) (hc : c.places = false) : n.directory.Meanwhile n'.directory := by
  cases q with
  | clock | freshId | isConnected | store | wallet | ledger =>
    obtain rfl : n' = n := h
    exact .refl _
  | step q =>
    obtain ⟨env, -, rfl⟩ := h
    cases q with
    | lookup | reachable | view | save => exact .refl _
    | enroll | drop | sweep | abandon => cases hc.symm.trans hq
    | install =>
      obtain rfl : c = .restore := hq
      cases hc
    | call slot time call =>
      exact n.directory.meanwhile_perform slot (time.getD env.now) (hq.begins hc)
    | announce slot call =>
      rcases announceOn_cases n env slot call with ⟨e, -, hn⟩ | ⟨_, _, _, s, -, hs, -, hn⟩
      · show n.directory.Meanwhile (n.announceOn env slot call).node.directory
        rw [hn]
        exact .refl _
      · have hperform := n.directory.meanwhile_perform slot env.now (hq.begins hc)
        rw [hs] at hperform
        show n.directory.Meanwhile (n.announceOn env slot call).node.directory
        rw [hn]
        exact hperform

/-! ### Commands that enter or leave sessions -/

/-- The request calls on no session, or on the active one. -/
def Request.OnActive (n : Node) : Request → Prop
  | .step (.call slot _ _) | .step (.announce slot _) => ∃ id, n.directory.active = some (id, slot)
  | _ => True

/-- With commands of the other kind between its requests, the program keeps the active session the
only one in progress, and has this to say about the node when it succeeds. -/
def Upholds (Q : α → Node → Prop) : Program interface (Except Error α) → Node → Prop
  | .done r, n => n.directory.Single ∧ ∀ a, r = .ok a → Q a n
  | .ask q next, n => n.directory.Single ∧ ∀ n₁ : Node, n.directory.Meanwhile n₁.directory →
    q.OnActive n₁ ∧ ∀ a n₂, n₁.Answers q a n₂ → Upholds Q (next a) n₂

/-- What holds of a node all the while. -/
def Steady (P : Node → Prop) : Prop :=
  ∀ n n' : Node, n.directory.Single → P n → n.directory.Meanwhile n'.directory → P n'

/-- The session is the active one. -/
def Poised (id : SessionId) (slot : Slot) (n : Node) : Prop := n.directory.active = some (id, slot)

/-- The active session is not in progress. -/
structure Spent (id : SessionId) (slot : Slot) (n : Node) : Prop where
  active : n.directory.active = some (id, slot)
  ended : (n.directory.session slot).isInProgress = false

theorem steady_true : Steady fun _ => True := fun _ _ _ _ _ => trivial

theorem steady_poised (id : SessionId) (slot : Slot) : Steady (Poised id slot) :=
  fun _ _ _ h hm => hm.active.trans h

theorem steady_spent (id : SessionId) (slot : Slot) : Steady (Spent id slot) := by
  refine fun n n' hn h hm => ⟨hm.active.trans h.active, ?_⟩
  cases hp : (n'.directory.session slot).isInProgress with
  | false => rfl
  | true => exact (hm.before slot (hn.engaged slot) hp).symm.trans h.ended

variable {P Q : α → Node → Prop} {R : β → Node → Prop} {A : Node → Prop}

theorem Upholds.single {p : Program interface (Except Error α)} (h : Upholds Q p n) :
    n.directory.Single := by
  cases p with
  | done r => exact h.1
  | ask q next => exact h.1

/-- Steps of others make no difference to a program that waits. -/
theorem Upholds.meanwhile {next : q.Answer → Program interface (Except Error α)}
    (h : Upholds Q (.ask q next) n) (hm : n.directory.Meanwhile n₁.directory) :
    Upholds Q (.ask q next) n₁ :=
  ⟨h.1.meanwhile hm, fun n₂ hm' => h.2 n₂ (hm.trans hm')⟩

open Running

theorem upholds_bind {x : Running α} {f : α → Running β} (hx : Upholds P x.run n)
    (hf : ∀ a (n' : Node), n'.directory.Single → P a n' → Upholds R (f a).run n') :
    Upholds R (x >>= f).run n := by
  obtain ⟨p, rfl⟩ : ∃ p', ExceptT.mk p' = x := ⟨x.run, rfl⟩
  induction p generalizing n with
  | done r =>
    rcases r with e | a
    · exact ⟨hx.1, nofun⟩
    · exact hf a n hx.1 (hx.2 a rfl)
  | ask q next ih =>
    refine ⟨hx.1, fun n₁ hm => ⟨(hx.2 n₁ hm).1, fun a n₂ ha => ?_⟩⟩
    exact ih a ((hx.2 n₁ hm).2 a n₂ ha)

theorem upholds_pure (hn : n.directory.Single) {a : α} (h : Q a n) :
    Upholds Q (pure a : Running α).run n :=
  ⟨hn, fun _ ha => by cases ha; exact h⟩

theorem upholds_throw (hn : n.directory.Single) (e : Error) :
    Upholds Q (throw e : Running α).run n :=
  ⟨hn, nofun⟩

theorem upholds_orFail (hn : n.directory.Single) (r : Except Error α) :
    Upholds (fun a _ => r = .ok a) (orFail r).run n :=
  ⟨hn, fun _ ha => ha⟩

theorem upholds_if {p : Prop} [Decidable p] {x y : Running α} (hx : p → Upholds Q x.run n)
    (hy : ¬p → Upholds Q y.run n) : Upholds Q (if p then x else y).run n := by
  split
  · next h => exact hx h
  · next h => exact hy h

theorem upholds_check {p : Prop} [Decidable p] {e : Error} {f : Unit → Running β}
    (hn : n.directory.Single) (hf : Upholds R (f ()).run n) :
    Upholds R (if p then (throw e : Running Unit) >>= f else f ()).run n := by
  split
  · exact ⟨hn, nofun⟩
  · exact hf

/-- What is asked of the surroundings leaves the node alone. -/
theorem upholds_ask {q : Request} (hn : n.directory.Single) (hA : Steady A) (h : A n)
    (hq : ∀ n' : Node, q.OnActive n') (hanswers : ∀ (n₁ : Node) a n₂, n₁.Answers q a n₂ → n₂ = n₁) :
    Upholds (fun _ => A) (ask q).run n := by
  refine ⟨hn, fun n₁ hm => ⟨hq n₁, fun a n₂ ha => ?_⟩⟩
  obtain rfl := hanswers n₁ a n₂ ha
  exact ⟨hn.meanwhile hm, fun _ _ => hA n n₂ hn h hm⟩

theorem upholds_store {q : Store.Request} (hn : n.directory.Single) (hA : Steady A) (h : A n) :
    Upholds (fun _ => A) (Running.store q).run n := by
  refine ⟨hn, fun n₁ hm => ⟨trivial, fun a n₂ ha => ?_⟩⟩
  obtain rfl : n₂ = n₁ := ha
  exact ⟨hn.meanwhile hm, fun _ _ => hA n n₂ hn h hm⟩

theorem upholds_askReachable (hn : n.directory.Single) (hA : Steady A) (h : A n)
    (counterparts : List (Role × Option PeerId)) :
    Upholds (fun _ => A) (askReachable counterparts).run n := by
  induction counterparts generalizing n with
  | nil => exact upholds_pure hn h
  | cons entry rest ih =>
    obtain ⟨role, _ | peer⟩ := entry
    · exact ih hn h
    · refine upholds_bind (upholds_ask hn hA h (fun _ => trivial) fun _ _ _ h => h) ?_
      intro isOpen n₁ hn₁ h₁
      exact upholds_bind (ih hn₁ h₁) fun _ _ hn₂ h₂ => upholds_pure hn₂ h₂

theorem upholds_evict (hn : n.directory.Single) (hA : Steady A) (h : A n)
    (evicted : Option Eviction) : Upholds (fun _ => A) (evict evicted).run n := by
  cases evicted with
  | none => exact upholds_pure hn h
  | some e =>
    have hremove : Upholds (fun _ => A) (storeAnyway (.remove e.id)).run n :=
      upholds_bind (upholds_ask hn hA h (fun _ => trivial) fun _ _ _ h => h)
        fun _ _ hn₁ h₁ => upholds_pure hn₁ h₁
    refine upholds_bind hremove fun _ n₁ hn₁ h₁ => ?_
    exact upholds_bind (upholds_askReachable hn₁ hA h₁ _) fun _ _ hn₂ h₂ => upholds_pure hn₂ h₂

theorem upholds_ensureConnected (hn : n.directory.Single) (role : Role) (peer : PeerId) :
    Upholds (fun _ _ => True) (ensureConnected role peer).run n := by
  refine upholds_bind (upholds_ask hn steady_true trivial (fun _ => trivial) fun _ _ _ h => h) ?_
  intro isOpen n₁ hn₁ _
  cases isOpen
  · exact upholds_throw hn₁ _
  · exact upholds_pure hn₁ trivial

theorem upholds_clock (hn : n.directory.Single) :
    Upholds (fun _ _ => True) (ask .clock).run n :=
  upholds_ask hn steady_true trivial (fun _ => trivial) fun _ _ _ h => h

/-- A step that only looks. -/
theorem upholds_look {q : Step} (hn : n.directory.Single)
    (hq : ∀ n' : Node, (Request.step q).OnActive n')
    (hsame : ∀ (n' : Node) env, (n'.perform env q).node = n') :
    Upholds (fun _ _ => True) (ask (.step q)).run n := by
  refine upholds_ask hn steady_true trivial hq ?_
  rintro n₁ a n₂ ⟨env, -, rfl⟩
  exact hsame n₁ env

theorem upholds_lookup (hn : n.directory.Single) (id : SessionId) :
    Upholds (fun slot => Poised id slot) (lookup id).run n := by
  refine ⟨hn, fun n₁ hm => ⟨trivial, ?_⟩⟩
  rintro a n₂ ⟨env, rfl, rfl⟩
  exact ⟨hn.meanwhile hm, fun slot h => Directory.lookup_eq_ok.1 h⟩

theorem upholds_enroll (hn : n.directory.Single) (id : SessionId) (now : UInt64) :
    Upholds (fun (answer : Slot × Option Eviction) => Poised id answer.1)
      (step (.enroll id now) rfl).run n := by
  refine ⟨hn, fun n₁ hm => ⟨trivial, ?_⟩⟩
  rintro a n₂ ⟨env, rfl, rfl⟩
  have hn₁ := hn.meanwhile hm
  show Upholds _ (.done (n₁.enrolled (n₁.directory.getOrCreate id now)).answer)
    (n₁.enrolled (n₁.directory.getOrCreate id now)).node
  cases hr : n₁.directory.getOrCreate id now with
  | error e => exact ⟨hn₁, nofun⟩
  | ok r =>
    obtain ⟨⟨slot, evicted⟩, d⟩ := r
    obtain ⟨hd, ha⟩ := hn₁.getOrCreate hr
    exact ⟨hd, fun answer h => by cases h; exact ha⟩

theorem upholds_install (hn : n.directory.Single) {s : Session} (hs : s.pending = none)
    (now : UInt64) : Upholds (fun _ _ => True)
      (step (α := Slot × Option Eviction) (.install s now) rfl).run n := by
  refine ⟨hn, fun n₁ hm => ⟨trivial, ?_⟩⟩
  rintro a n₂ ⟨env, rfl, rfl⟩
  have hn₁ := hn.meanwhile hm
  show Upholds _ (.done (n₁.enrolled (n₁.directory.install s now)).answer)
    (n₁.enrolled (n₁.directory.install s now)).node
  cases hr : n₁.directory.install s now with
  | error e => exact ⟨hn₁, nofun⟩
  | ok r => exact ⟨hn₁.install hs hr, fun _ _ => trivial⟩

/-- A call on the active session. -/
theorem upholds_request (hn : n.directory.Single) (h : Poised id slot n) (time : Option UInt64)
    (call : Session.Call) : Upholds (fun _ => Poised id slot)
      (ask (.step (.call slot time call))).run n := by
  refine ⟨hn, fun n₁ hm => ⟨⟨id, hm.active.trans h⟩, ?_⟩⟩
  rintro a n₂ ⟨env, rfl, rfl⟩
  have ha := hm.active.trans h
  exact ⟨(hn.meanwhile hm).perform ha _ call, fun _ _ => ha⟩

theorem upholds_drop (hn : n.directory.Single) (h : Spent id slot n) (id' : SessionId) :
    Upholds (fun _ _ => True) (ask (.step (.drop id'))).run n := by
  refine ⟨hn, fun n₁ hm => ⟨trivial, ?_⟩⟩
  rintro a n₂ ⟨env, rfl, rfl⟩
  have h₁ := steady_spent id slot n n₁ hn h hm
  exact ⟨(hn.meanwhile hm).drop h₁.active h₁.ended id', fun _ _ => trivial⟩

theorem upholds_discardIfUnused (hn : n.directory.Single) (h : Poised id slot n) :
    Upholds (fun _ _ => True) (discardIfUnused slot id).run n := by
  refine ⟨hn, fun n₁ hm => ⟨trivial, ?_⟩⟩
  rintro a n₂ ⟨env, rfl, rfl⟩
  have hn₁ := hn.meanwhile hm
  refine upholds_if (Q := fun _ _ => True) (fun hst => ?_) fun _ => upholds_pure hn₁ trivial
  have hspent : Spent id slot _ := ⟨hm.active.trans h, congrArg Status.isInProgress hst⟩
  exact upholds_drop hn₁ hspent id

/-- A reset of the active session leaves it not in progress. -/
theorem callOn_reset (hn : n.directory.Single) (h : Poised id slot n) (now : UInt64) :
    (n.callOn now slot (.reset true)).node.directory.Single ∧
      ∀ a, (n.callOn now slot (.reset true)).answer.1 = .ok a →
        Spent id slot (n.callOn now slot (.reset true)).node := by
  refine ⟨hn.perform h now (.reset true), fun a ha => ⟨h, ?_⟩⟩
  show ((n.directory.update slot _).session slot).isInProgress = false
  rw [Directory.session_update_self (hn.named _ _ h)]
  have hs : (n.directory.session slot).perform now (.reset true) = (.ok a, _) := Prod.ext ha rfl
  obtain ⟨-, hcleared⟩ := Session.reset_ok (Session.orKeepUnit_eq_ok.1 hs)
  exact congrArg Session.isInProgress hcleared

/-! ### Each of these commands -/

theorem upholds_beginSend (hn : n.directory.Single) (destinations : List Address) (each : Amount)
    (constraints : CoinConstraints) (mixer guarantor : PeerId) :
    Upholds (fun _ _ => True) (beginSend destinations each constraints mixer guarantor).run n := by
  refine upholds_bind (upholds_orFail hn _) fun schedule n hn _ => ?_
  refine upholds_check hn ?_
  refine upholds_bind (upholds_ensureConnected hn _ _) fun _ n hn _ => ?_
  refine upholds_bind (upholds_ensureConnected hn _ _) fun _ n hn _ => ?_
  refine upholds_bind (upholds_ask hn steady_true trivial (fun _ => trivial) fun _ _ _ h => h) ?_
  intro id n hn _
  refine upholds_bind (upholds_clock hn) fun now n hn _ => ?_
  refine upholds_bind (upholds_enroll hn id now) fun enrolled n hn h => ?_
  have hsteady := steady_poised id enrolled.1
  refine upholds_bind (upholds_evict hn hsteady h _) fun cancellations n hn h => ?_
  refine upholds_bind (upholds_request hn h _ _) fun out n hn h => ?_
  obtain ⟨e | _, s⟩ := out
  · exact upholds_bind (upholds_discardIfUnused hn h) fun _ _ hn _ => upholds_throw hn e
  · exact upholds_pure hn trivial

theorem upholds_onInvite (hn : n.directory.Single) (from_ : PeerId) (id : SessionId) (role : Role)
    (schedule : Schedule) (fees : FeePolicy) (constraints : CoinConstraints) (config : Config) :
    Upholds (fun _ _ => True)
      (onInvite from_ id role schedule fees constraints config).run n := by
  refine upholds_bind (upholds_ensureConnected hn _ _) fun _ n hn _ => ?_
  refine upholds_check hn (upholds_check hn ?_)
  refine upholds_bind (upholds_orFail hn _) fun _ n hn _ => ?_
  refine upholds_bind (upholds_clock hn) fun now n hn _ => ?_
  refine upholds_bind (upholds_enroll hn id now) fun enrolled n hn h => ?_
  have hsteady := steady_poised id enrolled.1
  refine upholds_bind (upholds_evict hn hsteady h _) fun cancellations n hn h => ?_
  refine upholds_bind (upholds_request hn h _ _) fun out n hn h => ?_
  obtain ⟨e | _, s⟩ := out
  · exact upholds_bind (upholds_discardIfUnused hn h) fun _ _ hn _ => upholds_throw hn e
  · exact upholds_bind (upholds_look hn (fun _ => trivial) fun _ _ => rfl)
      fun _ _ hn _ => upholds_pure hn trivial

theorem upholds_cancel (hn : n.directory.Single) (id : SessionId) :
    Upholds (fun _ _ => True) (cancel id).run n := by
  refine upholds_bind (upholds_lookup hn id) fun slot n hn h => ?_
  refine upholds_bind (P := fun _ => Spent id slot) ?_ fun targets n hn h =>
    upholds_bind (upholds_drop hn h id) fun _ _ hn _ => upholds_pure hn trivial
  refine ⟨hn, fun n₁ hm => ⟨trivial, ?_⟩⟩
  rintro a n₂ ⟨env, rfl, rfl⟩
  obtain ⟨hsingle, hspent⟩ := callOn_reset (hn.meanwhile hm) (hm.active.trans h) env.now
  refine ⟨hsingle, fun targets h => ?_⟩
  obtain ⟨a, ha, -⟩ := map_eq_ok.1 h
  exact hspent a ha

theorem upholds_onCancel (hn : n.directory.Single) (id : SessionId) :
    Upholds (fun _ _ => True) (onCancel id).run n := by
  refine upholds_bind (upholds_lookup hn id) fun slot n hn h => ?_
  refine upholds_bind (P := fun _ => Spent id slot) ?_ fun targets n hn h =>
    upholds_bind (upholds_drop hn h id) fun _ _ hn _ => upholds_pure hn trivial
  refine ⟨hn, fun n₁ hm => ⟨⟨id, hm.active.trans h⟩, ?_⟩⟩
  rintro a n₂ ⟨env, rfl, rfl⟩
  obtain ⟨hsingle, hspent⟩ := callOn_reset (hn.meanwhile hm) (hm.active.trans h) env.now
  exact ⟨hsingle, hspent⟩

theorem upholds_recordSweep (hn : n.directory.Single) (outcomes : List SweepOutcome) :
    Upholds (fun _ _ => True) (recordSweep outcomes).run n := by
  induction outcomes generalizing n with
  | nil => exact upholds_pure hn trivial
  | cons o rest ih =>
    cases o with
    | reset id =>
      refine upholds_bind (P := fun _ _ => True) ?_ fun _ n hn _ => ih hn
      refine upholds_bind (upholds_ask hn steady_true trivial (fun _ => trivial)
        fun _ _ _ h => h) fun _ _ hn _ => upholds_pure hn trivial
    | flagged id =>
      refine upholds_bind (upholds_look hn (fun _ => trivial) fun _ _ => rfl) fun found n hn _ => ?_
      rcases found with e | slot
      · exact ih hn
      · exact upholds_bind (upholds_look (q := .save slot) hn (fun _ => trivial) fun _ _ => rfl)
          fun _ n hn _ => ih hn

theorem upholds_restoreFrom (hn : n.directory.Single) (ids : List SessionId)
    (restored : Option SessionId) :
    Upholds (fun _ _ => True) (restoreFrom ids restored).run n := by
  induction ids generalizing n restored with
  | nil => exact upholds_pure hn trivial
  | cons id ids ih =>
    refine upholds_bind (upholds_store hn steady_true trivial) fun found n hn _ => ?_
    rcases found with _ | bytes
    · exact ih hn restored
    refine upholds_bind (upholds_orFail hn _) fun s n hn hs => ?_
    refine upholds_if (Q := fun _ _ => True) (fun _ => ?_) fun _ => ?_
    · exact upholds_bind (upholds_store hn steady_true trivial) fun _ n hn _ => ih hn restored
    refine upholds_if (Q := fun _ _ => True) (fun _ => ih hn restored) fun _ => ?_
    refine upholds_bind (upholds_clock hn) fun now n hn _ => ?_
    refine upholds_bind (upholds_install hn (Session.ofSnapshot_pending hs) now) fun out n hn _ => ?_
    exact upholds_bind (upholds_evict hn steady_true trivial _) fun _ n hn _ => ih hn _

/-- Every command that enters or leaves sessions does so one session at a time. -/
theorem program_upholds (config : Config) (hn : n.directory.Single) (hc : c.places = true) :
    Upholds (fun _ _ => True) (c.program config) n := by
  cases c with
  | beginSend => exact upholds_beginSend hn ..
  | onInvite => exact upholds_onInvite hn ..
  | cancel id => exact upholds_cancel hn id
  | onCancel id => exact upholds_onCancel hn id
  | sweep =>
    refine upholds_bind (upholds_clock hn) fun now n hn _ => ?_
    refine upholds_bind (P := fun _ _ => True) ?_ fun outcomes n hn _ =>
      upholds_bind (upholds_recordSweep hn outcomes) fun _ _ hn _ => upholds_pure hn trivial
    refine ⟨hn, fun n₁ hm => ⟨trivial, ?_⟩⟩
    rintro a n₂ ⟨env, rfl, rfl⟩
    exact ⟨(hn.meanwhile hm).sweep _ _ _, fun _ _ => trivial⟩
  | restore =>
    refine upholds_bind (upholds_store hn steady_true trivial) fun ids n hn _ => ?_
    exact upholds_bind (upholds_restoreFrom hn ids none) fun _ _ hn _ => upholds_pure hn trivial
  | _ => cases hc

/-! ### What is handed to the store -/

theorem callOn_handed (hn : n.directory.Single) {now : UInt64} {call : Session.Call}
    (hcall : (∃ id, n.directory.active = some (id, slot)) ∨ call.begins = false)
    {r : Store.Request} (hr : r ∈ (n.callOn now slot call).handed) :
    ∃ s, r = persist s ∧ (s.isInProgress = true → ∃ id, n.directory.active = some (id, slot) ∧
      (n.callOn now slot call).node.directory.session slot = s) := by
  refine ⟨((n.directory.session slot).perform now call).2, ?_, fun hp => ?_⟩
  · have hr : r ∈ if isSaved call ((n.directory.session slot).perform now call).1 then
        [persist ((n.directory.session slot).perform now call).2] else [] := hr
    split at hr
    · exact List.mem_singleton.1 hr
    · cases hr
  · obtain ⟨id, ha⟩ : ∃ id, n.directory.active = some (id, slot) := by
      rcases hcall with ha | hbegins
      · exact ha
      · exact hn.active slot ((hn.engaged slot).inProgress_before hbegins hp)
    exact ⟨id, ha, Directory.session_update_self (hn.named id slot ha)⟩

/-- A snapshot of a session in progress that is handed to the store is that of the active one. -/
theorem perform_handed (hn : n.directory.Single) (env : Surroundings) {q : Step}
    (hq : (Request.step q).OnActive n ∨ ∀ slot call, q.call? = some (slot, call) →
      call.begins = false) {r : Store.Request} (hr : r ∈ (n.perform env q).handed) :
    ∃ s, r = persist s ∧ (s.isInProgress = true → ∃ id slot,
      (n.perform env q).node.directory.active = some (id, slot) ∧
      (n.perform env q).node.directory.session slot = s) := by
  cases q with
  | lookup | drop | sweep | reachable | view => cases hr
  | enroll id now =>
    have hr : r ∈ (n.enrolled (n.directory.getOrCreate id now)).handed := hr
    cases h : n.directory.getOrCreate id now <;> rw [h] at hr <;> cases hr
  | install s now =>
    have hr : r ∈ (n.enrolled (n.directory.install s now)).handed := hr
    cases h : n.directory.install s now <;> rw [h] at hr <;> cases hr
  | call slot time call =>
    obtain ⟨s, hs, hp⟩ := callOn_handed hn (hq.imp_right fun h => h slot call rfl) hr
    exact ⟨s, hs, fun h => (hp h).imp fun _ h => ⟨slot, h⟩⟩
  | announce slot call =>
    rw [perform, announceOn] at hr ⊢
    dsimp only at hr ⊢
    split at hr
    · cases hr
    · obtain ⟨s, hs, hp⟩ := callOn_handed hn (hq.imp_right fun h => h slot call rfl) hr
      exact ⟨s, hs, fun h => (hp h).imp fun _ h => ⟨slot, h⟩⟩
  | abandon slot =>
    obtain ⟨s, hs, hp⟩ := callOn_handed hn (.inr rfl) hr
    exact ⟨s, hs, fun h => (hp h).imp fun _ h => ⟨slot, h⟩⟩
  | save slot =>
    refine ⟨n.directory.session slot, List.mem_singleton.1 hr, fun h => ?_⟩
    obtain ⟨id, ha⟩ := hn.active slot h
    exact ⟨id, slot, ha, rfl⟩

end Node

/-! ### Orderly histories -/

/-- The job has not ended, and its command enters or leaves sessions. -/
def Job.isPlacing (j : Job) : Bool :=
  match j.rest with
  | .done _ => false
  | .ask .. => j.command.places

namespace Process

variable {w w' : Process} {config : Config}

/-- No two commands that enter or leave sessions are running. -/
def Exclusive (w : Process) : Prop :=
  w.jobs.Pairwise fun j j' => ¬(j.isPlacing = true ∧ j'.isPlacing = true)

instance : Decidable w.Exclusive := inferInstanceAs (Decidable (List.Pairwise _ _))

/-- The states that a node comes to while no two such commands overlap. -/
inductive Orderly (config : Config) : Process → Prop
  | start : Orderly config (start config)
  | snoc {w w' : Process} (h : Orderly config w) (ht : w.Ticks w') (hw : w'.Exclusive) :
      Orderly config w'

/-- The active session is the only one in progress, and stays so whatever runs. -/
structure Placed (w : Process) : Prop where
  single : w.node.directory.Single
  placing : ∀ (i : Nat) (j : Job), w.jobs[i]? = some j → j.command.places = true →
    Node.Upholds (fun _ _ => True) j.rest w.node
  others : ∀ j ∈ w.jobs, j.command.places = false → Within False j.command none j.rest

theorem Exclusive.eq {i i' : Nat} {j j' : Job} (h : w.Exclusive) (hj : w.jobs[i]? = some j)
    (hj' : w.jobs[i']? = some j') (hp : j.isPlacing = true) (hp' : j'.isPlacing = true) :
    i = i' := by
  obtain ⟨hi, rfl⟩ := List.getElem?_eq_some_iff.1 hj
  obtain ⟨hi', rfl⟩ := List.getElem?_eq_some_iff.1 hj'
  have hpair := List.pairwise_iff_getElem.1 h
  rcases Nat.lt_trichotomy i i' with hlt | he | hgt
  · exact absurd ⟨hp, hp'⟩ (hpair i i' hi hi' hlt)
  · exact he
  · exact absurd ⟨hp', hp⟩ (hpair i' i hi' hi hgt)

theorem start_placed (config : Config) : (start config).Placed where
  single := Directory.empty_single _
  placing := nofun
  others := nofun

/-- Nobody else enters or leaves a session while a job that does so goes on. -/
theorem Placed.tick (h : w.Placed) (hw : w.Exclusive) (ht : w.Ticks w') : w'.Placed := by
  cases ht with
  | start c =>
    refine ⟨h.single, fun i j hj hp => ?_, fun j hj hp => ?_⟩
    · rcases List.mem_append.1 (List.mem_of_getElem? hj) with hmem | hmem
      · obtain ⟨k, hk⟩ := List.mem_iff_getElem?.1 hmem
        exact h.placing k j hk hp
      · obtain rfl := List.mem_singleton.1 hmem
        exact Node.program_upholds _ h.single hp
    · rcases List.mem_append.1 hj with hmem | hmem
      · exact h.others j hmem hp
      · obtain rfl := List.mem_singleton.1 hmem
        exact Node.program_within False _ c
  | @answer i c q next a n hj ha =>
    have hmem : ⟨c, .ask q next⟩ ∈ w.jobs := List.mem_of_getElem? hj
    cases hc : c.places with
    | true =>
      have hnext := ((h.placing i _ hj hc).2 w.node (.refl _)).2 a n ha
      refine ⟨hnext.single, fun k j hk hp => ?_, fun j hj' hp => ?_⟩
      · have hk : (w.jobs.set i ⟨c, next a⟩)[k]? = some j := hk
        by_cases hki : i = k
        · subst hki
          rw [List.getElem?_set_self (List.getElem?_eq_some_iff.1 hj).1] at hk
          cases hk
          exact hnext
        · rw [List.getElem?_set_ne hki] at hk
          obtain ⟨c', rest⟩ := j
          cases rest with
          | done r => exact ⟨hnext.single, fun _ _ => trivial⟩
          | ask q' next' => exact absurd (hw.eq hj hk hc hp) hki
      · rcases List.mem_or_eq_of_mem_set hj' with hj' | rfl
        · exact h.others j hj' hp
        · cases hc.symm.trans hp
    | false =>
      obtain ⟨hmay, hnext⟩ := h.others _ hmem hc
      have hm := ha.meanwhile hmay hc
      refine ⟨h.single.meanwhile hm, fun k j hk hp => ?_, fun j hj' hp => ?_⟩
      · have hk : (w.jobs.set i ⟨c, next a⟩)[k]? = some j := hk
        have hk : w.jobs[k]? = some j := by
          by_cases hki : i = k
          · subst hki
            rw [List.getElem?_set_self (List.getElem?_eq_some_iff.1 hj).1] at hk
            cases hk
            cases hc.symm.trans hp
          · rwa [List.getElem?_set_ne hki] at hk
        have hold := h.placing k j hk hp
        obtain ⟨c', rest⟩ := j
        cases rest with
        | done r => exact ⟨h.single.meanwhile hm, fun _ _ => trivial⟩
        | ask q' next' => exact hold.meanwhile hm
      · rcases List.mem_or_eq_of_mem_set hj' with hj' | rfl
        · exact h.others j hj' hp
        · exact hnext a ⟨⟨_, _, ha⟩, False.elim⟩

theorem Orderly.exclusive (h : Orderly config w) : w.Exclusive := by
  cases h with
  | start => exact .nil
  | snoc _ _ hw => exact hw

theorem Orderly.placed (h : Orderly config w) : w.Placed := by
  induction h with
  | start => exact start_placed config
  | snoc h ht _ ih => exact ih.tick h.exclusive ht

/-- The next step of a running job calls on the active session, or begins none. -/
theorem Placed.next {i : Nat} {c : Command} {q : Step}
    {next : q.Answer → Program Node.interface (Except Error Reply)} (h : w.Placed)
    (hj : w.jobs[i]? = some ⟨c, .ask (.step q) next⟩) :
    (Request.step q).OnActive w.node ∨
      ∀ slot call, q.call? = some (slot, call) → call.begins = false := by
  cases hc : c.places with
  | true => exact .inl ((h.placing i _ hj hc).2 w.node (.refl _)).1
  | false =>
    refine .inr fun slot call hcall => ?_
    have hmay := (h.others _ (List.mem_of_getElem? hj) hc).1
    cases q <;> cases hcall
    all_goals exact hmay.begins hc

/-- As long as no two commands that enter or leave sessions overlap, every session in progress is
the active one, so at most one is; and the snapshots of sessions in progress that are handed to the
store are those of the active one. All other commands may run in between any two requests. -/
theorem Orderly.single_session (h : Orderly config w) :
    (∀ slot, (w.session slot).isInProgress = true → ∃ id, w.active = some (id, slot)) ∧
    (∀ slot slot', (w.session slot).isInProgress = true → (w.session slot').isInProgress = true →
      slot = slot') ∧
    ∀ (i : Nat) (c : Command) (q : Step)
      (next : q.Answer → Program Node.interface (Except Error Reply)) (env : Node.Surroundings)
      (r : Store.Request), w.jobs[i]? = some ⟨c, .ask (.step q) next⟩ →
      r ∈ (w.node.perform env q).handed → ∃ s, r = Node.persist s ∧ (s.isInProgress = true →
        ∃ id slot, (w.node.perform env q).node.directory.active = some (id, slot) ∧
          (w.node.perform env q).node.directory.session slot = s) := by
  have hw := h.placed
  refine ⟨hw.single.active, fun slot slot' hp hp' => ?_, fun i c q next env r hj hr => ?_⟩
  · obtain ⟨id, ha⟩ := hw.single.active slot hp
    obtain ⟨id', ha'⟩ := hw.single.active slot' hp'
    exact (Prod.mk.inj (Option.some.inj (ha.symm.trans ha'))).2
  · exact Node.perform_handed hw.single env (hw.next hj) hr

/-! ### One request at a time -/

/-- A command is given, or one request of a job is answered, if it has one. -/
def take (x : Circumstances) (w : Process) : Turn → Process
  | .tell c => ⟨w.node, w.jobs ++ [⟨c, c.program w.node.config⟩]⟩
  | .answer i =>
    match w.jobs[i]? with
    | some ⟨c, .ask q next⟩ =>
      let (a, n) := Node.answerIn x q w.node
      ⟨n, w.jobs.set i ⟨c, next a⟩⟩
    | _ => w

/-- One turn after another. -/
def follow (x : Circumstances) (w : Process) (ts : List Turn) : Process := ts.foldl (take x) w

theorem take_ticks (x : Circumstances) (w : Process) (t : Turn) :
    w.take x t = w ∨ w.Ticks (w.take x t) := by
  cases t with
  | tell c => exact .inr (.start c)
  | answer i =>
    unfold take
    dsimp only
    split
    · next hj => exact .inr (.answer hj (Node.answers_answerIn x _ w.node))
    · exact .inl rfl

theorem follow_reaches {w₀ : Process} (x : Circumstances) (h : w₀.Reaches w) (ts : List Turn) :
    w₀.Reaches (w.follow x ts) := by
  induction ts generalizing w with
  | nil => exact h
  | cons t ts ih =>
    refine ih (w := w.take x t) ?_
    rcases w.take_ticks x t with he | ht
    · exact he.symm ▸ h
    · exact h.snoc ht

theorem follow_orderly (x : Circumstances) (h : Orderly config w) (ts : List Turn)
    (hall : ∀ k ≤ ts.length, (w.follow x (ts.take k)).Exclusive) :
    Orderly config (w.follow x ts) := by
  induction ts generalizing w with
  | nil => exact h
  | cons t ts ih =>
    refine ih (w := w.take x t) ?_ fun k hk => hall (k + 1) (Nat.succ_le_succ hk)
    rcases w.take_ticks x t with he | ht
    · exact he.symm ▸ h
    · exact h.snoc ht (hall 1 (Nat.le_add_left 1 ts.length))

end Process

namespace Overlap

open SigningMixer (circumstances)

/-- An invitation to a session with this identifier. -/
def invitation (n : UInt8) (role : Role) : Command :=
  .onInvite ⟨1⟩ ⟨.replicate 16 n⟩ role ⟨[⟨⟨"payee"⟩, ⟨100000⟩⟩]⟩ Config.standard.feePolicy .none

/-- The user's own session. -/
def own : Command := .beginSend [⟨"payee"⟩] ⟨100000⟩ .none ⟨2⟩ ⟨3⟩

/-- A first session is joined, and then given up for the user's own one, which is enrolled. The store
is to forget the first one now. -/
def turns : List Turn :=
  .tell (invitation 1 .guarantor) :: .replicate 5 (.answer 0) ++
    .tell own :: .replicate 5 (.answer 1)

/-- In the meantime another invitation is accepted, and the user's session is to begin. -/
def overlap : List Turn :=
  .tell (invitation 2 .mixer) :: .replicate 8 (.answer 2) ++ .replicate 2 (.answer 1)

/-- The user's session is about to begin. -/
def before : Process := (Process.start .standard).follow circumstances (turns ++ overlap)

/-- It began. -/
def after : Process := before.take circumstances (.answer 1)

/-- The user's session begins with nothing in between. -/
def alone : List Turn := turns ++ .replicate 3 (.answer 1)

def began : Process := (Process.start .standard).follow circumstances alone

end Overlap

open Overlap SigningMixer in
theorem Process.Orderly.single_own_session :
    Orderly .standard began ∧ (began.session 1).isInProgress = true ∧
      ∃ id, began.active = some (id, 1) := by
  have hw : Orderly .standard began := follow_orderly circumstances .start alone (by decide +kernel)
  have hp : (began.session 1).isInProgress = true := by decide +kernel
  exact ⟨hw, hp, hw.single_session.1 1 hp⟩

open Overlap in
/-- Without such an order two sessions can be in progress: one is accepted while another, enrolled
before it, has not begun, and then begins although it is not the active one any more. -/
theorem Process.sessions_overlap :
    (start .standard).Reaches before ∧ before.Ticks after ∧
      before.active = some (⟨.replicate 16 2⟩, 2) ∧ after.active = some (⟨.replicate 16 2⟩, 2) ∧
      (before.session 1).status = .notBegun ∧ (after.session 1).status = .reserved ∧
      (after.session 2).isInProgress = true :=
  ⟨follow_reaches _ .refl _, (before.take_ticks SigningMixer.circumstances (.answer 1)).resolve_left
    fun he => absurd (congrArg (fun w => (w.session 1).status) he) (by decide +kernel),
    by decide +kernel, by decide +kernel, by decide +kernel, by decide +kernel, by decide +kernel⟩

end EscrowMix
