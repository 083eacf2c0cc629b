import EscrowMix.Proofs.Node.Talk

/-!
Any number of nodes that exchange messages. A message may come late, at any node, or never, and one
that a node refused may come again; only once it is accepted it is used up. Users tell their nodes
whatever they like in between, and no identifier is drawn twice.
-/

namespace EscrowMix

/-- Nodes and what is between them. -/
structure Network where
  nodes : List Process
  /-- The messages that were posted and are not accepted yet. -/
  mail : List PeerMessage
  /-- The identifiers that were drawn so far. -/
  drawn : List SessionId

/-- The place of a session: its node and the slot there. -/
abbrev Seat := Nat × Slot

namespace Network

variable {net net' : Network} {i : Nat} {m : Moment} {rest : List PeerMessage}

/-- Nodes that have just started. -/
def start (configs : List Config) : Network := ⟨configs.map .start, [], []⟩

/-- The session at a place. -/
def session? (net : Network) (p : Seat) : Option Session := net.nodes[p.1]?.map (·.session p.2)

/-- The network after a moment of one node, with what is left of the mail. -/
def after (net : Network) (i : Nat) (m : Moment) (rest : List PeerMessage) : Network :=
  ⟨net.nodes.set i m.after, rest ++ m.posted, net.drawn ++ m.drawn⟩

/-- Where the message that a moment starts with comes from, and what is left of the mail. -/
inductive Takes (mail : List PeerMessage) (m : Moment) : List PeerMessage → Prop
  /-- The moment starts with none. -/
  | nothing (h : m.heard? = none) : Takes mail m mail
  /-- It is accepted, and gone. -/
  | accepted {front back : List PeerMessage} {msg : PeerMessage} (h : m.heard? = some msg)
      (hmail : mail = front ++ msg :: back) (hok : m.succeeds = true) : Takes mail m (front ++ back)
  /-- It is refused, or the node still works on it. -/
  | left {msg : PeerMessage} (h : m.heard? = some msg) (hmail : msg ∈ mail)
      (hok : m.succeeds = false) : Takes mail m mail

/-- Something happens at one node. -/
inductive Step (net : Network) : Network → Prop
  | intro {i : Nat} {m : Moment} {rest : List PeerMessage} (hi : net.nodes[i]? = some m.before)
      (hm : m.Happens) (hmail : Takes net.mail m rest) (hdrawn : (net.drawn ++ m.drawn).Nodup) :
      Step net (net.after i m rest)

/-- What a network of nodes can come to. -/
inductive Reachable : Network → Prop
  | start (configs : List Config) : Reachable (start configs)
  | step {net net' : Network} (h : Reachable net) (hs : Step net net') : Reachable net'

theorem Takes.sublist {mail : List PeerMessage} (h : Takes mail m rest) : rest.Sublist mail := by
  cases h with
  | nothing | left => exact .refl _
  | accepted _ hmail =>
    rw [hmail]
    exact (List.sublist_cons_self _ _).append_left _

theorem Takes.mem {mail : List PeerMessage} {msg : PeerMessage} (h : Takes mail m rest)
    (hh : m.heard? = some msg) : msg ∈ mail := by
  cases h with
  | nothing hn => cases hn.symm.trans hh
  | accepted hm hmail =>
    cases hm.symm.trans hh
    rw [hmail]
    exact List.mem_append_right _ List.mem_cons_self
  | left hm hmail =>
    cases hm.symm.trans hh
    exact hmail

theorem session?_before (hi : net.nodes[i]? = some m.before) (slot : Slot) :
    net.session? (i, slot) = some (m.before.session slot) := by
  rw [session?, hi]
  rfl

theorem session?_after (hi : net.nodes[i]? = some m.before) (j : Nat) (slot : Slot) :
    (net.after i m rest).session? (j, slot) =
      if j = i then some (m.after.session slot) else net.session? (j, slot) := by
  simp only [session?, after]
  split
  · next he =>
    subst he
    rw [List.getElem?_set_self (List.getElem?_eq_some_iff.1 hi).1]
    rfl
  · next he => rw [List.getElem?_set_ne (Ne.symm he)]

/-- Every node has a history of its own. -/
theorem Reachable.path (h : Reachable net) : ∀ (i : Nat) (w : Process), net.nodes[i]? = some w →
    ∃ config ms, Path (.start config) ms w := by
  induction h with
  | start configs =>
    intro i w hw
    obtain ⟨config, -, rfl⟩ := List.mem_map.1 (List.mem_of_getElem? hw)
    exact ⟨config, [], .refl⟩
  | step h hs ih =>
    obtain @⟨j, m, rest, hj, hm, -, -⟩ := hs
    intro i w hw
    by_cases he : j = i
    · subst he
      have hw := (List.getElem?_set_self (List.getElem?_eq_some_iff.1 hj).1).symm.trans hw
      obtain ⟨config, ms, hpath⟩ := ih j m.before hj
      cases hw
      exact ⟨config, _, hpath.snoc hm⟩
    · exact ih i w ((List.getElem?_set_ne he).symm.trans hw)

/-- What is known of a moment that happens next. -/
theorem Reachable.talks (h : Reachable net) (hi : net.nodes[i]? = some m.before)
    (hm : m.Happens) : m.Talks := by
  obtain ⟨config, ms, hpath⟩ := h.path i m.before hi
  exact hpath.talks hm

/-- The session that a node holds, with the identifier that it is known by. -/
def held? (net : Network) (i : Nat) : Option (SessionId × Session) :=
  net.nodes[i]?.bind fun w => w.active.map fun (id, slot) => (id, w.session slot)

/-- A session that a node holds has its place, its identifier, and data that agrees with its
status. -/
theorem Reachable.held (h : Reachable net) {id : SessionId} {s : Session}
    (hs : net.held? i = some (id, s)) :
    (∃ slot, net.session? (i, slot) = some s) ∧ s.id = id ∧ s.Consistent := by
  obtain ⟨w, hw, hs⟩ := Option.bind_eq_some_iff.1 hs
  obtain ⟨⟨id', slot⟩, ha, hs⟩ := Option.map_eq_some_iff.1 hs
  cases hs
  obtain ⟨config, ms, hpath⟩ := h.path i w hw
  have hd := hpath.sound.directory
  refine ⟨⟨slot, ?_⟩, (hd.active id slot ha).2, hd.consistent slot⟩
  rw [session?, hw]
  rfl

/-! ### Every command can be given, and every message delivered -/

/-- What is left of the mail when a moment starts with a message of it, or with none. -/
def remaining? (mail : List PeerMessage) (m : Moment) : Option (List PeerMessage) :=
  match m.heard? with
  | none => some mail
  | some msg =>
    if msg ∈ mail then some (if m.succeeds then mail.erase msg else mail) else none

theorem takes_remaining {mail : List PeerMessage} (h : remaining? mail m = some rest) :
    Takes mail m rest := by
  unfold remaining? at h
  split at h
  · next hh =>
    cases h
    exact .nothing hh
  · next msg hh =>
    obtain ⟨hm, h⟩ := Option.ite_none_right_eq_some.1 h
    cases hok : m.succeeds with
    | true =>
      rw [hok] at h
      cases h
      obtain ⟨front, back, -, hmail, hrest⟩ := List.exists_erase_eq hm
      rw [if_pos rfl, hrest]
      exact .accepted hh hmail hok
    | false =>
      rw [hok] at h
      cases h
      exact .left hh hm hok

/-- A turn of one node, if it has one and the message is there. -/
def turn? (x : Circumstances) (net : Network) (i : Nat) (t : Turn) : Option Network := do
  let w ← net.nodes[i]?
  let m ← w.turn? x t
  let rest ← remaining? net.mail m
  if (net.drawn ++ m.drawn).Nodup then some (net.after i m rest) else none

theorem turn?_step {x : Circumstances} {t : Turn} (h : net.turn? x i t = some net') :
    Step net net' := by
  obtain ⟨w, hw, h⟩ := Option.bind_eq_some_iff.1 h
  obtain ⟨m, hm, h⟩ := Option.bind_eq_some_iff.1 h
  obtain ⟨rest, hrest, h⟩ := Option.bind_eq_some_iff.1 h
  obtain ⟨hdrawn, h⟩ := Option.ite_none_right_eq_some.1 h
  cases h
  obtain ⟨rfl, hhappens⟩ := Process.turn?_happens hm
  exact .intro hw hhappens (takes_remaining hrest) hdrawn

/-- One turn after another, each at its node. -/
def play (x : Circumstances) (net : Network) (turns : List (Nat × Turn)) : Network :=
  turns.foldl (fun net (i, t) => (net.turn? x i t).getD net) net

theorem Reachable.play (h : Reachable net) (x : Circumstances) (turns : List (Nat × Turn)) :
    Reachable (net.play x turns) := by
  induction turns generalizing net with
  | nil => exact h
  | cons turn turns ih =>
    refine ih ?_
    show Reachable ((net.turn? x turn.1 turn.2).getD net)
    cases ht : net.turn? x turn.1 turn.2 with
    | none => exact h
    | some net' => exact h.step (turn?_step ht)

end Network

end EscrowMix
