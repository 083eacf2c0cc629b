import EscrowMix.Proofs.Node.Obligations

/-!
All histories of a node. It is told commands one after the other, a restart among them, and the
requests of the commands that run are answered in any order; steps are performed when they are asked
for. Two things hold at every moment: a session that has not begun has no role and nothing
outstanding, and what is outstanding is owed by a command that has not ended.
-/

namespace EscrowMix

open Node (Command Request Surroundings Step Answers Owes Responsible)

/-! ### What an answered request leaves outstanding -/

namespace Node

variable {n n' : Node} {q : Request} {a : q.Answer} {slot : Slot}

/-- A step that hands out no ticket in the slot leaves what was outstanding, or less. -/
theorem Alters.pending {q : Step} {answer : q.Answer} {s : Session} (h : Alters n q answer slot s)
    (hq : (Request.step q).IsSound) {p : Transition} (hp : s.pending = some p) :
    q.claimed? answer = some (slot, ⟨p, s.epoch⟩) ∨
      ((n.directory.session slot).pending = some p ∧
        s.epoch = (n.directory.session slot).epoch) := by
  cases h with
  | kept => exact .inr ⟨hp, rfl⟩
  | @called c now _ hc =>
    rcases (Session.perform_effect rfl).pending hp with ht | h
    · exact .inl (hc _ ht)
    · exact .inr h
  | @tidied c now hc =>
    rcases (Session.perform_effect rfl).pending hp with ht | h
    · have hno : isClaim c = false := by cases c <;> first | rfl | cases hc
      rw [claimed?_of_not_isClaim hno] at ht
      cases ht
    · exact .inr h
  | opened => cases hp
  | installed hinstall =>
    subst hinstall
    cases hq.2.symm.trans hp

theorem Alters.ready {q : Step} {answer : q.Answer} {s : Session} (h : Alters n q answer slot s)
    (hq : (Request.step q).IsSound) (hr : (n.directory.session slot).Ready) : s.Ready := by
  cases h with
  | kept => exact hr
  | called now | tidied now => exact (Session.perform_effect rfl).ready hr
  | opened => exact Session.fresh_ready _ _ _
  | installed hinstall =>
    subst hinstall
    exact fun hst => absurd hst hq.1

/-- A request that uses a ticket which is honoured leaves nothing outstanding. -/
theorem Request.Uses.settles {t : Ticket} (hu : q.Uses slot t)
    (hh : (n.directory.session slot).honours t) (h : n.Answers q a n') :
    (n'.directory.session slot).pending = none := by
  have hlt := Directory.lt_length_of_pending (Session.honours_iff.1 hh).1
  cases q with
  | step q =>
    cases q with
    | call slot' time c =>
      obtain ⟨rfl, ht, hm⟩ := hu
      obtain ⟨env, -, rfl⟩ := h
      have hs := Directory.session_update_self (s := ((n.directory.session slot').perform
        (time.getD env.now) c).2) hlt
      exact (congrArg Session.pending hs).trans (Session.perform_settles hh ht hm _)
    | _ => exact hu.elim
  | _ => exact hu.elim

theorem Answers.ready (h : n.Answers q a n') (hq : q.IsSound)
    (hr : (n.directory.session slot).Ready) : (n'.directory.session slot).Ready := by
  cases q with
  | step q =>
    obtain ⟨env, rfl, rfl⟩ := h
    exact (perform_alters n env q slot).ready hq hr
  | _ =>
    obtain rfl : n' = n := h
    exact hr

theorem Answers.pending (h : n.Answers q a n') (hq : q.IsSound) {p : Transition}
    (hp : (n'.directory.session slot).pending = some p) :
    q.claimed? a = some (slot, ⟨p, (n'.directory.session slot).epoch⟩) ∨
      ((n.directory.session slot).pending = some p ∧
        (n'.directory.session slot).epoch = (n.directory.session slot).epoch) := by
  cases q with
  | step q =>
    obtain ⟨env, rfl, rfl⟩ := h
    exact (perform_alters n env q slot).pending hq hp
  | _ =>
    obtain rfl : n' = n := h
    exact .inr ⟨hp, rfl⟩

end Node

/-! ### Histories -/

namespace Process

variable {w w' w'' : Process} {config : Config} {slot : Slot}

/-- One thing happens to a node: it is told a command, or a request of one that runs is answered. -/
inductive Ticks (w : Process) : Process → Prop
  | start (c : Command) : Ticks w ⟨w.node, w.jobs ++ [⟨c, c.program w.node.config⟩]⟩
  | answer {i : Nat} {c : Command} {q : Request}
      {next : q.Answer → Program Node.interface (Except Error Node.Reply)} {a : q.Answer} {n : Node}
      (hj : w.jobs[i]? = some ⟨c, .ask q next⟩) (ha : w.node.Answers q a n) :
      Ticks w ⟨n, w.jobs.set i ⟨c, next a⟩⟩

/-- The states that a node can come to. -/
inductive Reaches (w : Process) : Process → Prop
  | refl : Reaches w w
  | snoc {w' w'' : Process} (h : Reaches w w') (ht : w'.Ticks w'') : Reaches w w''

/-- No command runs. -/
def AtRest (w : Process) : Prop := ∀ j ∈ w.jobs, ∃ r, j.rest = .done r

/-- What is outstanding is owed by a command that runs. -/
structure Settled (w : Process) : Prop where
  ready : ∀ slot, (w.session slot).Ready
  responsible : ∀ j ∈ w.jobs, Responsible j.rest
  owed : ∀ slot p, (w.session slot).pending = some p →
    ∃ j ∈ w.jobs, Owes slot ⟨p, (w.session slot).epoch⟩ j.rest

theorem start_settled (config : Config) : (start config).Settled where
  ready _ := Session.fresh_ready _ _ _
  responsible := nofun
  owed := nofun

theorem Settled.tick (h : w.Settled) (ht : w.Ticks w') : w'.Settled := by
  cases ht with
  | start c =>
    refine ⟨h.ready, fun j hj => ?_, fun slot p hp => ?_⟩
    · rcases List.mem_append.1 hj with hj | hj
      · exact h.responsible j hj
      · rw [List.mem_singleton.1 hj]
        exact Node.program_responsible _ c
    · obtain ⟨j, hj, howes⟩ := h.owed slot p hp
      exact ⟨j, List.mem_append_left _ hj, howes⟩
  | @answer i c q next a n hj ha =>
    have hmem : ⟨c, .ask q next⟩ ∈ w.jobs := List.mem_of_getElem? hj
    have hresponsible : Responsible (.ask q next) := h.responsible _ hmem
    obtain ⟨hsound, hnext⟩ := hresponsible
    obtain ⟨hrest, hclaims⟩ := hnext _ _ _ ha
    have hnew : ⟨c, next a⟩ ∈ w.jobs.set i ⟨c, next a⟩ :=
      List.mem_set (List.getElem?_eq_some_iff.1 hj).1 _
    refine ⟨fun slot => ha.ready hsound (h.ready slot), fun j hj' => ?_, fun slot p hp => ?_⟩
    · rcases List.mem_or_eq_of_mem_set hj' with hj' | rfl
      · exact h.responsible j hj'
      · exact hrest
    · rcases ha.pending hsound hp with hclaimed | ⟨hp', he⟩
      · exact ⟨_, hnew, hclaims _ _ hclaimed⟩
      · obtain ⟨j, hj', howes⟩ := h.owed slot p hp'
        have he : (n.directory.session slot).epoch = (w.session slot).epoch := he
        rw [← he] at howes
        obtain ⟨k, hk⟩ := List.mem_iff_getElem?.1 hj'
        by_cases hki : i = k
        · subst hki
          obtain rfl := Option.some.inj (hj.symm.trans hk)
          -- The answered command itself owes it: had it used the ticket, nothing were outstanding.
          rcases howes with huses | hlater
          · have hh : (w.session slot).honours ⟨p, (n.directory.session slot).epoch⟩ = true :=
              Session.honours_iff.2 ⟨hp', he.symm⟩
            cases (huses.settles hh ha).symm.trans hp
          · exact ⟨_, hnew, hlater a⟩
        · refine ⟨j, List.mem_iff_getElem?.2 ⟨k, ?_⟩, howes⟩
          rw [List.getElem?_set_ne hki]
          exact hk

/-- Both hold in every state that a node can come to. -/
theorem Reaches.settled (h : (start config).Reaches w) : w.Settled := by
  induction h with
  | refl => exact start_settled config
  | snoc _ ht ih => exact ih.tick ht

/-- While no command runs, no transition is outstanding. -/
theorem Settled.pending (h : w.Settled) (hrest : w.AtRest) (slot : Slot) :
    (w.session slot).pending = none := by
  cases hp : (w.session slot).pending with
  | none => rfl
  | some p =>
    obtain ⟨j, hj, howes⟩ := h.owed slot p hp
    obtain ⟨r, hr⟩ := hrest j hj
    rw [hr] at howes
    exact howes.elim

end Process

end EscrowMix
