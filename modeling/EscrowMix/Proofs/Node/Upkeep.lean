import EscrowMix.Proofs.Node.Histories
import EscrowMix.Proofs.Session.Lifecycle

/-!
What a node keeps in order whatever it is told, a restart included: the active session is found in
its slot and under its identifier, and where a session has not begun there is nothing.
-/

namespace EscrowMix

open Node (Request Step Surroundings)

namespace Directory

variable {d d' d₁ : Directory} {id : SessionId} {slot : Slot} {s : Session} {now : UInt64}

/-- The active session is in its slot, and has the identifier that it was enrolled under. -/
def Named (d : Directory) : Prop :=
  ∀ id slot, d.active = some (id, slot) → slot < d.sessions.length ∧ (d.session slot).id = id

theorem empty_named (fees : FeePolicy) : (empty fees).Named := nofun

theorem Named.update (h : d.Named) (hs : s.id = (d.session slot).id) : (d.update slot s).Named := by
  intro id slot' ha
  obtain ⟨hlt, hid⟩ := h id slot' ha
  refine ⟨Nat.lt_of_lt_of_eq hlt length_update.symm, ?_⟩
  rw [session_update]
  split
  · next he => rw [hs, ← he.1, hid]
  · exact hid

theorem Named.perform (h : d.Named) (slot : Slot) (now : UInt64) (c : Session.Call) :
    (d.update slot ((d.session slot).perform now c).2).Named :=
  h.update (Session.perform_id _ now c)

theorem activate_named (d : Directory) (s : Session) : (d.activate s).2.Named := by
  intro id slot ha
  cases ha
  refine ⟨by simp [activate], ?_⟩
  rw [session_activate, if_pos rfl]

theorem closed_named (d : Directory) : d.closed.Named := nofun

theorem Named.getOrCreate (h : d.Named) {evicted : Option Eviction}
    (hr : d.getOrCreate id now = .ok ((slot, evicted), d')) :
    d'.Named ∧ d'.active = some (id, slot) := by
  rcases getOrCreate_ok hr with ⟨ha, rfl⟩ | ⟨d₁, hv, rfl, rfl⟩
  · exact ⟨h, ha⟩
  · refine ⟨activate_named _ _, ?_⟩
    rw [opened_active, hv.length_eq]

theorem Named.install (h : d.Named) {evicted : Option Eviction}
    (hr : d.install s now = .ok ((slot, evicted), d')) : d'.Named := by
  rcases install_ok hr with ⟨ha, rfl⟩ | ⟨d₁, hv, rfl⟩
  · exact h.update (h _ _ ha).2.symm
  · exact activate_named d₁ s

theorem Named.sweep (h : d.Named) (now maxIdle : UInt64) (locked : Option Slot) :
    (d.sweep now maxIdle locked).2.Named := by
  rcases d.sweep_cases now maxIdle locked with hd | ⟨id, slot, -, -, ⟨s, -, hd⟩ | hd⟩
  · rw [hd]
    exact h
  · rw [hd]
    exact closed_named _
  · rw [hd]
    exact h.perform slot now .flag

end Directory

namespace Node

variable {n n' : Node} {q : Request} {a : q.Answer} {slot : Slot}

/-- Every step leaves the active session in its place. -/
theorem perform_named (h : n.directory.Named) (env : Surroundings) (q : Step) :
    (n.perform env q).node.directory.Named := by
  cases q with
  | lookup | reachable | view | save => exact h
  | enroll id now =>
    show (n.enrolled (n.directory.getOrCreate id now)).node.directory.Named
    cases hr : n.directory.getOrCreate id now with
    | error e => exact h
    | ok r => exact (h.getOrCreate hr).1
  | install s now =>
    show (n.enrolled (n.directory.install s now)).node.directory.Named
    cases hr : n.directory.install s now with
    | error e => exact h
    | ok r => exact h.install hr
  | drop id =>
    show (n.directory.drop id).2.Named
    rcases n.directory.drop_cases id with ⟨-, hd⟩ | ⟨-, hd⟩
    · rw [hd]
      exact Directory.closed_named _
    · rw [hd]
      exact h
  | sweep now => exact h.sweep now _ none
  | call slot time c => exact h.perform slot (time.getD env.now) c
  | announce slot c =>
    show (n.announceOn env slot c).node.directory.Named
    rcases announceOn_cases n env slot c with ⟨e, -, hn⟩ | ⟨_, _, answer, s, -, hs, -, hn⟩
    · rw [hn]
      exact h
    · have hperform := h.perform slot env.now c
      rw [hs] at hperform
      rw [hn]
      exact hperform
  | abandon slot => exact h.perform slot env.now (.reset true)

theorem Answers.named (ha : n.Answers q a n') (h : n.directory.Named) : n'.directory.Named := by
  cases q with
  | step q =>
    obtain ⟨env, -, rfl⟩ := ha
    exact perform_named h env q
  | clock | freshId | isConnected | store | wallet | ledger =>
    obtain rfl : n' = n := ha
    exact h

theorem Answers.untouched (ha : n.Answers q a n') (hq : q.IsSound)
    (hr : (n.directory.session slot).Ready) (h : (n.directory.session slot).Untouched) :
    (n'.directory.session slot).Untouched := by
  cases q with
  | step q =>
    obtain ⟨env, -, rfl⟩ := ha
    have halters := perform_alters n env q slot
    generalize (n.perform env q).node.directory.session slot = s at halters
    cases halters with
    | kept => exact h
    | called now | tidied now => exact h.perform hr now _
    | opened id fees now => exact Session.fresh_untouched id fees now
    | installed hinstall =>
      subst hinstall
      exact fun hst => absurd hst hq.1
  | clock | freshId | isConnected | store | wallet | ledger =>
    obtain rfl : n' = n := ha
    exact h

end Node

namespace Process

variable {w w' : Process} {config : Config}

theorem Reaches.named (h : (start config).Reaches w) : w.node.directory.Named := by
  induction h with
  | refl => exact Directory.empty_named _
  | snoc _ ht ih =>
    cases ht with
    | start => exact ih
    | answer _ ha => exact ha.named ih

/-- In every state that a node can come to, a session that has not begun is blank. -/
theorem Reaches.untouched (h : (start config).Reaches w) (slot : Slot) :
    (w.session slot).Untouched := by
  induction h with
  | refl => exact Session.fresh_untouched _ _ _
  | snoc h ht ih =>
    cases ht with
    | start => exact ih
    | answer hj ha =>
      have hsound := (h.settled.responsible _ (List.mem_of_getElem? hj)).1
      exact ha.untouched hsound (h.settled.ready slot) ih

end Process

end EscrowMix
