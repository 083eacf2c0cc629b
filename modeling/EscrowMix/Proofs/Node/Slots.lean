import EscrowMix.Proofs.Node.Commands
import EscrowMix.Proofs.Session.Effects

/-!
What one locked step does to the session in a slot: it performs a call there, or resets or flags the
session on the node's own account, or the slot is new, or a restored session is put into it; and
else the slot is as it was. Nothing is asked about the node or about the arguments of the step.
-/

namespace EscrowMix

namespace Directory

variable {d d' d₁ : Directory} {slot slot' : Slot} {s : Session} {now : UInt64} {id : SessionId}

theorem session_activate (d : Directory) (s : Session) (slot : Slot) :
    (d.activate s).2.session slot = if slot = d.sessions.length then s else d.session slot := by
  rcases Nat.lt_trichotomy slot d.sessions.length with hlt | rfl | hgt
  · rw [if_neg (Nat.ne_of_lt hlt)]
    simp [session, activate, List.getElem?_append_left hlt]
  · simp [session, activate]
  · rw [if_neg (Nat.ne_of_gt hgt), session_of_length_le (Nat.le_of_lt hgt)]
    refine session_of_length_le ?_
    simp only [activate, List.length_append, List.length_singleton]
    omega

/-- Nothing stands in a slot that was never handed out. -/
theorem lt_length_of_ne_vacant (h : d.session slot ≠ vacant) : slot < d.sessions.length :=
  Nat.not_le.1 fun hle => h (session_of_length_le hle)

theorem lt_length_of_begun (h : (d.session slot).status ≠ .notBegun) :
    slot < d.sessions.length := by
  refine lt_length_of_ne_vacant fun he => h ?_
  rw [he]
  rfl

theorem lt_length_of_pending {t : Transition} (h : (d.session slot).pending = some t) :
    slot < d.sessions.length := by
  refine lt_length_of_ne_vacant fun he => ?_
  rw [he] at h
  cases h

/-- A restored session takes the place of the active one with its identifier, or a new slot. -/
theorem install_ok {evicted : Option Eviction}
    (h : d.install s now = .ok ((slot, evicted), d')) :
    (d.active = some (s.id, slot) ∧ d' = d.update slot s) ∨
    ∃ d₁, Vacated d s.id now d₁ ∧ d' = (d₁.activate s).2 := by
  unfold install enroll at h
  split at h
  · next ha =>
    simp only [Except.ok.injEq, Prod.mk.injEq] at h
    exact .inr ⟨d, .free ha, h.2.symm⟩
  · next id' slot' ha =>
    split at h
    · next hid =>
      simp only [if_true, Except.ok.injEq, Prod.mk.injEq] at h
      obtain ⟨⟨rfl, -⟩, rfl⟩ := h
      exact .inl ⟨by rw [ha, hid], rfl⟩
    · next hid =>
      obtain ⟨⟨eviction, d₁⟩, hv, h⟩ := bind_eq_ok.1 h
      simp only [pure_eq_ok, Prod.mk.injEq] at h
      exact .inr ⟨d₁, vacate_ok ha hid hv, h.2.symm⟩

theorem install_of_active (h : d.active = some (s.id, slot)) :
    d.install s now = .ok ((slot, none), d.update slot s) := by
  unfold install enroll
  rw [h]
  simp

/-- Making room leaves every session as it was, or resets it. -/
theorem Vacated.session_eq (h : Vacated d id now d₁) (slot : Slot) :
    d₁.session slot = d.session slot ∨
      ((d.session slot).perform now (.reset true)).2 = d₁.session slot := by
  cases h with
  | free | finished => exact .inl rfl
  | @cleared id' slot' s ha hid hb hr =>
    rw [session_update]
    split
    · next he =>
      rw [he.1, Session.perform_reset hr]
      exact .inr rfl
    · exact .inl rfl

end Directory

namespace Node

variable {n : Node} {slot : Slot} {s : Session}

/-- The slot and the call of a step that performs a call for someone. -/
def Step.call? : Step → Option (Slot × Session.Call)
  | .call slot _ c => some (slot, c)
  | .announce slot c => some (slot, c)
  | _ => none

/-- The ticket that a step hands out, and the slot that it is for. -/
def Step.claimed? : (q : Step) → q.Answer → Option (Slot × Ticket)
  | .call slot _ c, answer => (c.claimed? answer.1).map fun t => (slot, t)
  | .announce slot c, answer => (c.claimed? (answer.map (·.2))).map fun t => (slot, t)
  | _, _ => none

/-- The calls that a node makes on its own account. -/
def isTidying : Session.Call → Prop
  | .reset true | .flag => True
  | _ => False

/-- The session that a step leaves in a slot. -/
inductive Alters (n : Node) (q : Step) (answer : q.Answer) (slot : Slot) : Session → Prop
  | kept : Alters n q answer slot (n.directory.session slot)
  | called {c : Session.Call} (now : UInt64) (hq : q.call? = some (slot, c))
      (hc : ∀ t, c.claimed? ((n.directory.session slot).perform now c).1 = some t →
        q.claimed? answer = some (slot, t)) :
      Alters n q answer slot ((n.directory.session slot).perform now c).2
  | tidied {c : Session.Call} (now : UInt64) (hc : isTidying c) :
      Alters n q answer slot ((n.directory.session slot).perform now c).2
  | opened (id : SessionId) (fees : FeePolicy) (now : UInt64)
      (hslot : n.directory.sessions.length ≤ slot) : Alters n q answer slot (.fresh id fees now)
  | installed {s : Session} {now : UInt64} (hq : q = .install s now)
      (hslot : n.directory.sessions.length ≤ slot ∨ n.directory.active = some (s.id, slot)) :
      Alters n q answer slot s

variable {q : Step} {answer : q.Answer}

theorem alters_of_eq (h : s = n.directory.session slot) : Alters n q answer slot s := by
  rw [h]
  exact .kept

/-- A call in any slot: the others are as they were. -/
theorem session_put (n : Node) (slot slot' : Slot) (s : Session) :
    (n.put slot s).directory.session slot' = n.directory.session slot' ∨
      (slot' = slot ∧ (n.put slot s).directory.session slot' = s) := by
  rw [put, Directory.session_update]
  split
  · next h => exact .inr ⟨h.1, rfl⟩
  · exact .inl rfl

theorem alters_called {c : Session.Call} {now : UInt64} {slot' : Slot}
    (hq : q.call? = some (slot', c))
    (hc : ∀ t, c.claimed? ((n.directory.session slot').perform now c).1 = some t →
      q.claimed? answer = some (slot', t)) :
    Alters n q answer slot
      ((n.put slot' ((n.directory.session slot').perform now c).2).directory.session slot) := by
  rcases session_put n slot' slot _ with h | ⟨rfl, h⟩
  · exact alters_of_eq h
  · rw [h]
    exact .called now hq hc

theorem alters_tidied {c : Session.Call} {now : UInt64} {slot' : Slot} (hc : isTidying c) :
    Alters n q answer slot
      ((n.put slot' ((n.directory.session slot').perform now c).2).directory.session slot) := by
  rcases session_put n slot' slot _ with h | ⟨rfl, h⟩
  · exact alters_of_eq h
  · rw [h]
    exact .tidied now hc

theorem alters_vacated {d : Directory} {id : SessionId} {now : UInt64}
    (h : n.directory.Vacated id now d) : Alters n q answer slot (d.session slot) := by
  rcases h.session_eq slot with h | h
  · exact alters_of_eq h
  · rw [← h]
    exact .tidied now trivial

theorem alters_sweep (n : Node) (now : UInt64) (slot : Slot) {answer : (Step.sweep now).Answer} :
    Alters n (.sweep now) answer slot
      ((n.directory.sweep now n.config.maxIdleSecs none).2.session slot) := by
  rcases n.directory.sweep_cases now n.config.maxIdleSecs none with
    h | ⟨id, slot', ha, hb, ⟨s, hr, h⟩ | h⟩
  · rw [h]
    exact .kept
  · have hs : s = ((n.directory.session slot').perform now (.reset true)).2 := by
      rw [Session.perform_reset hr]
    rw [h, hs]
    exact alters_tidied (c := .reset true) trivial
  · rw [h]
    exact alters_tidied (c := .flag) trivial

theorem alters_enroll (n : Node) (id : SessionId) (now : UInt64) (slot : Slot)
    {answer : (Step.enroll id now).Answer} :
    Alters n (.enroll id now) answer slot
      ((n.enrolled (n.directory.getOrCreate id now)).node.directory.session slot) := by
  cases hd : n.directory.getOrCreate id now with
  | error e => exact .kept
  | ok r =>
    obtain ⟨⟨slot', evicted⟩, d⟩ := r
    have hd' : (n.enrolled (.ok ((slot', evicted), d))).node.directory = d := rfl
    rw [hd']
    rcases Directory.getOrCreate_ok hd with ⟨-, rfl⟩ | ⟨d₁, hv, rfl, rfl⟩
    · exact .kept
    · rw [Directory.opened, Directory.session_activate, hv.length_eq]
      split
      · next h => exact .opened id _ now (Nat.le_of_eq h.symm)
      · exact alters_vacated hv

theorem alters_install (n : Node) (s : Session) (now : UInt64) (slot : Slot)
    {answer : (Step.install s now).Answer} :
    Alters n (.install s now) answer slot
      ((n.enrolled (n.directory.install s now)).node.directory.session slot) := by
  cases hd : n.directory.install s now with
  | error e => exact .kept
  | ok r =>
    obtain ⟨⟨slot', evicted⟩, d⟩ := r
    have hd' : (n.enrolled (.ok ((slot', evicted), d))).node.directory = d := rfl
    rw [hd']
    rcases Directory.install_ok hd with ⟨ha, rfl⟩ | ⟨d₁, hv, rfl⟩
    · rw [Directory.session_update]
      split
      · next h => exact .installed rfl (.inr (h.1 ▸ ha))
      · exact .kept
    · rw [Directory.session_activate, hv.length_eq]
      split
      · next h => exact .installed rfl (.inl (Nat.le_of_eq h.symm))
      · exact alters_vacated hv

/-- Every step leaves a session in this way, in every slot. -/
theorem perform_alters (n : Node) (env : Surroundings) (q : Step) (slot : Slot) :
    Alters n q (n.perform env q).answer slot ((n.perform env q).node.directory.session slot) := by
  cases q with
  | lookup | reachable | view | save => exact .kept
  | enroll id now => exact alters_enroll n id now slot
  | install s now => exact alters_install n s now slot
  | drop id =>
    have hn : (n.perform env (.drop id)).node.directory = (n.directory.drop id).2 := rfl
    rw [hn]
    rcases n.directory.drop_cases id with ⟨-, h⟩ | ⟨-, h⟩ <;> rw [h] <;> exact .kept
  | sweep now => exact alters_sweep n now slot
  | call slot' time c =>
    refine alters_called (c := c) rfl fun t ht => ?_
    exact congrArg (Option.map fun t => (slot', t)) ht
  | announce slot' c =>
    have hout : n.perform env (.announce slot' c) = n.announceOn env slot' c := rfl
    rw [hout]
    rcases announceOn_cases n env slot' c with
      ⟨e, -, hn⟩ | ⟨role, targets, answer, s, -, hs, ha, hn⟩
    · rw [hn]
      exact .kept
    · have hs' : s = ((n.directory.session slot').perform env.now c).2 := by rw [hs]
      rw [hn, hs']
      refine alters_called (c := c) rfl fun t ht => ?_
      rw [hs] at ht
      have hmap : (answer.map fun a => ((role, targets), a)).map (·.2) = answer := by
        cases answer <;> rfl
      have hclaimed : (Step.announce slot' c).claimed? (answer.map fun a => ((role, targets), a)) =
          (c.claimed? answer).map fun t => (slot', t) :=
        congrArg (fun a => (c.claimed? a).map fun t => (slot', t)) hmap
      rw [ha, hclaimed, ht]
      rfl
  | abandon slot' => exact alters_tidied (c := .reset true) trivial

/-! ### Slots are never given up -/

theorem length_enrolled {x : Except Error ((Slot × Option Eviction) × Directory)}
    (h : ∀ answer d, x = .ok (answer, d) → n.directory.sessions.length ≤ d.sessions.length) :
    n.directory.sessions.length ≤ (n.enrolled x).node.directory.sessions.length := by
  rcases x with e | ⟨answer, d⟩
  · exact Nat.le_refl _
  · exact h answer d rfl

theorem length_activated {d : Directory} {id : SessionId} {now : UInt64} (s : Session)
    (h : n.directory.Vacated id now d) :
    n.directory.sessions.length ≤ (d.activate s).2.sessions.length := by
  simp only [Directory.activate, List.length_append, h.length_eq]
  exact Nat.le_add_right _ _

/-- A slot that was handed out stays one. -/
theorem perform_length (n : Node) (env : Surroundings) (q : Step) :
    n.directory.sessions.length ≤ (n.perform env q).node.directory.sessions.length := by
  have hput : ∀ slot s, n.directory.sessions.length ≤ (n.put slot s).directory.sessions.length :=
    fun slot s => Nat.le_of_eq Directory.length_update.symm
  cases q with
  | lookup | reachable | view | save => exact Nat.le_refl _
  | enroll id now =>
    refine length_enrolled fun answer d hd => ?_
    rcases Directory.getOrCreate_ok hd with ⟨-, rfl⟩ | ⟨d₁, hv, -, rfl⟩
    · exact Nat.le_refl _
    · exact length_activated _ hv
  | install s now =>
    refine length_enrolled fun answer d hd => ?_
    rcases Directory.install_ok hd with ⟨-, rfl⟩ | ⟨d₁, hv, rfl⟩
    · exact hput answer.1 s
    · exact length_activated s hv
  | drop id =>
    show _ ≤ (n.directory.drop id).2.sessions.length
    rcases n.directory.drop_cases id with ⟨-, h⟩ | ⟨-, h⟩
    · exact Nat.le_of_eq (by rw [h, Directory.length_closed])
    · exact Nat.le_of_eq (by rw [h])
  | sweep now =>
    show _ ≤ (n.directory.sweep now n.config.maxIdleSecs none).2.sessions.length
    rcases n.directory.sweep_cases now n.config.maxIdleSecs none with
      h | ⟨id, slot, -, -, ⟨s, -, h⟩ | h⟩
    · exact Nat.le_of_eq (by rw [h])
    · rw [h]
      exact hput slot s
    · rw [h]
      exact hput slot _
  | call slot => exact hput slot _
  | announce slot c =>
    show _ ≤ (n.announceOn env slot c).node.directory.sessions.length
    rcases announceOn_cases n env slot c with ⟨e, -, hn⟩ | ⟨role, targets, answer, s, -, -, -, hn⟩
    · exact Nat.le_of_eq (by rw [hn])
    · rw [hn]
      exact hput slot s
  | abandon slot => exact hput slot _

/-! ### A session that is not replaced -/

/-- The slot that a restored session was put into. -/
def Step.restored? : (q : Step) → q.Answer → Option Slot
  | .install .., .ok (slot, _) => some slot
  | _, _ => none

/-- In a slot that was handed out and that no restored session is put into, a step has no effect but
that of a call. -/
theorem perform_effect (n : Node) (env : Surroundings) (q : Step)
    (hlt : slot < n.directory.sessions.length)
    (hq : q.restored? (n.perform env q).answer ≠ some slot) : ∃ c answer,
      Session.Effect (n.directory.session slot) c answer
        ((n.perform env q).node.directory.session slot) := by
  have h := perform_alters n env q slot
  generalize (n.perform env q).node.directory.session slot = s at h
  cases h with
  | kept => exact ⟨.flag, .ok (), .refl⟩
  | @called c now => exact ⟨c, _, Session.perform_effect rfl⟩
  | @tidied c now => exact ⟨c, _, Session.perform_effect rfl⟩
  | opened id fees now hslot => exact absurd hlt (Nat.not_lt.2 hslot)
  | @installed s now hinstall hslot =>
    subst hinstall
    rcases hslot with hslot | ha
    · exact absurd hlt (Nat.not_lt.2 hslot)
    · refine absurd ?_ hq
      have hout : (n.perform env (.install s now)).answer = .ok (slot, none) := by
        rw [perform, Directory.install_of_active ha]
        rfl
      exact congrArg (Step.restored? (.install s now)) hout

end Node

end EscrowMix
