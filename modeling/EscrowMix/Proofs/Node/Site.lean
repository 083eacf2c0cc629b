import EscrowMix.Proofs.Node.Histories

/-!
A node and its store, and commands that run on them with nothing in between. The store does not
fail; the wallet, the ledger, the clock and the connections are as they like. What a command leaves
when it fails is found one request at a time.
-/

namespace EscrowMix

open Node (Command Reply Running Request Surroundings Step Targets)

/-- The errors of a call that stand for a change: a verdict on the deposits is noted, and a wallet
that breaks its word on the number of signatures ends the session. -/
def Session.Call.Notes : Session.Call → Error → Prop
  | .completeVerification .., e => ∃ failure, e = .verification failure
  | .completeSignature .., e => ∃ reason, e = .fatal reason
  | _, _ => False

/-- The same for a command. -/
def Node.Command.Notes : Command → Error → Prop
  | .verifyDeposits _, e => ∃ failure, e = .verification failure
  | .contributeSignature _, e => ∃ reason, e = .fatal reason
  | _, _ => False

/-- A node and its store. -/
structure Site where
  node : Node
  store : Store.Memory

namespace Site

/-- The store does what it is handed. -/
def kept (m : Store.Memory) (qs : List Store.Request) : Store.Memory :=
  qs.foldl (fun m q => (m.perform q).2) m

/-- A step is performed, and the store does what that hands to it. -/
def stepped (s : Site) (env : Surroundings) (q : Step) : Site :=
  ⟨(s.node.perform env q).node, kept s.store (s.node.perform env q).handed⟩

/-- A request is answered: a step by the node, and what the store is asked for by the store. All
others answer whatever they like. -/
def Answers (s : Site) : (q : Request) → q.Answer → Site → Prop
  | .step q, a, s' => ∃ env, a = (s.node.perform env q).answer ∧ s' = s.stepped env q
  | .store q, a, s' => a = .ok (s.store.perform q).1 ∧ s' = ⟨s.node, (s.store.perform q).2⟩
  | _, _, s' => s' = s

/-- A program runs with nothing in between: its result, and what it leaves. -/
inductive Runs {α : Type} : Site → Program Node.interface α → α → Site → Prop
  | done {s : Site} {a : α} : Runs s (.done a) a s
  | ask {s s₁ s' : Site} {q : Request} {next : q.Answer → Program Node.interface α} {a : q.Answer}
      {r : α} (ha : s.Answers q a s₁) (h : Runs s₁ (next a) r s') : Runs s (.ask q next) r s'

variable {α β : Type} {s s₀ s₁ s' : Site}

theorem runs_done {a b : α} (h : s.Runs (.done a) b s') : b = a ∧ s' = s := by
  cases h
  exact ⟨rfl, rfl⟩

theorem runs_ask {q : Request} {next : q.Answer → Program Node.interface α} {r : α}
    (h : s.Runs (.ask q next) r s') : ∃ a s₁, s.Answers q a s₁ ∧ s₁.Runs (next a) r s' := by
  cases h with
  | ask ha h => exact ⟨_, _, ha, h⟩

theorem runs_bind {p : Program Node.interface α} {f : α → Program Node.interface β} {r : β}
    (h : s.Runs (p.bind f) r s') : ∃ a s₁, s.Runs p a s₁ ∧ s₁.Runs (f a) r s' := by
  induction p generalizing s with
  | done a => exact ⟨a, s, .done, h⟩
  | ask q next ih =>
    obtain ⟨answer, s₁, ha, h⟩ := runs_ask h
    obtain ⟨a, s₂, h₁, h₂⟩ := ih answer h
    exact ⟨a, s₂, .ask ha h₁, h₂⟩

variable {noted : Error → Prop} {x : Running α} {f : α → Running β}

/-- If one of two programs in a row fails, either the first does, or the second after the first. -/
theorem runs_bind_error {e : Error} (h : s.Runs (x >>= f).run (.error e) s') :
    s.Runs x.run (.error e) s' ∨
      ∃ a s₁, s.Runs x.run (.ok a) s₁ ∧ s₁.Runs (f a).run (.error e) s' := by
  obtain ⟨r, s₁, h₁, h₂⟩ := runs_bind h
  rcases r with e' | a
  · obtain ⟨he, rfl⟩ := runs_done h₂
    cases he
    exact .inl h₁
  · exact .inr ⟨a, s₁, h₁, h₂⟩

/-- If the program fails, then what it leaves is this, unless its failure is one of those noted. -/
def FailsTo (s : Site) (noted : Error → Prop) (x : Running α) (s₀ : Site) : Prop :=
  ∀ e s', s.Runs x.run (.error e) s' → noted e ∨ s' = s₀

/-- The program changes nothing. -/
def Still (x : Running α) : Prop :=
  ∀ (s : Site) (r : Except Error α) (s' : Site), s.Runs x.run r s' → s' = s

/-- The program does not fail. -/
def Sure (x : Running α) : Prop := ∀ (s : Site) (e : Error) (s' : Site), ¬s.Runs x.run (.error e) s'

theorem failsTo_bind (hx : s.FailsTo noted x s₀)
    (hf : ∀ a s₁, s.Runs x.run (.ok a) s₁ → s₁.FailsTo noted (f a) s₀) :
    s.FailsTo noted (x >>= f) s₀ := by
  intro e s' h
  rcases runs_bind_error h with h | ⟨a, s₁, h₁, h⟩
  · exact hx e s' h
  · exact hf a s₁ h₁ e s' h

theorem Sure.failsTo (h : Sure x) : s.FailsTo noted x s₀ := fun e s' hr => absurd hr (h s e s')

theorem Still.failsTo (h : Still x) : s.FailsTo noted x s := fun _ s' hr => .inr (h s _ s' hr)

/-- First something is looked at. -/
theorem Still.failsTo_bind (hx : Still x)
    (hf : ∀ a, s.Runs x.run (.ok a) s → s.FailsTo noted (f a) s) : s.FailsTo noted (x >>= f) s := by
  refine Site.failsTo_bind hx.failsTo fun a s₁ h => ?_
  obtain rfl := hx s _ s₁ h
  exact hf a h

theorem still_bind (hx : Still x) (hf : ∀ a, Still (f a)) : Still (x >>= f) := by
  intro s r s' h
  obtain ⟨r', s₁, h₁, h₂⟩ := runs_bind h
  obtain rfl := hx s _ s₁ h₁
  rcases r' with e | a
  · exact (runs_done h₂).2
  · exact hf a s₁ r s' h₂

theorem sure_bind (hx : Sure x) (hf : ∀ a, Sure (f a)) : Sure (x >>= f) := by
  intro s e s' h
  rcases runs_bind_error h with h | ⟨a, s₁, -, h⟩
  · exact hx s e s' h
  · exact hf a s₁ e s' h

theorem sure_pure (a : α) : Sure (pure a : Running α) := by
  intro s e s' h
  cases (runs_done h).1

theorem still_pure (a : α) : Still (pure a : Running α) := fun _ _ _ h => (runs_done h).2

theorem still_throw (e : Error) : Still (throw e : Running α) := fun _ _ _ h => (runs_done h).2

/-! ### Requests -/

open Node.Running (ask orFail step lookup call)

theorem runs_request {q : Request} {r : Except Error q.Answer} (h : s.Runs (ask q).run r s') :
    ∃ a, r = .ok a ∧ s.Answers q a s' := by
  obtain ⟨a, s₁, ha, h⟩ := runs_ask h
  obtain ⟨rfl, rfl⟩ := runs_done h
  exact ⟨a, rfl, ha⟩

theorem sure_request (q : Request) : Sure (ask q) := by
  intro s e s' h
  obtain ⟨a, hr, -⟩ := runs_request h
  cases hr

/-- Looking at the clock, at the connections or at the node changes nothing. -/
theorem still_request {q : Request} (hq : ∀ (s : Site) a s', s.Answers q a s' → s' = s) :
    Still (ask q) := by
  intro s r s' h
  obtain ⟨a, -, ha⟩ := runs_request h
  exact hq s a s' ha

theorem still_view (slot : Slot) : Still (ask (.step (.view slot))) :=
  still_request fun _ _ _ ⟨_, _, h⟩ => h

theorem runs_step {q : Step} {hq : q.Answer = Except Error α} {r : Except Error α}
    (h : s.Runs (step q hq).run r s') :
    ∃ env, r = cast hq (s.node.perform env q).answer ∧ s' = s.stepped env q := by
  obtain ⟨a, s₁, ⟨env, rfl, rfl⟩, h⟩ := runs_ask h
  obtain ⟨rfl, rfl⟩ := runs_done h
  exact ⟨env, rfl, rfl⟩

theorem still_lookup (id : SessionId) : Still (lookup id) := by
  intro s r s' h
  obtain ⟨env, -, rfl⟩ := runs_step h
  rfl

theorem still_orFail (r : Except Error α) : Still (orFail r) := fun _ _ _ h => (runs_done h).2

theorem still_ensureConnected (role : Role) (peer : PeerId) :
    Still (Node.ensureConnected role peer) := by
  refine still_bind (still_request fun _ _ _ h => h) fun isOpen => ?_
  cases isOpen
  · exact still_throw _
  · exact still_pure ()

theorem sure_askReachable (counterparts : List (Role × Option PeerId)) :
    Sure (Node.askReachable counterparts) := by
  induction counterparts with
  | nil => exact sure_pure []
  | cons c rest ih =>
    obtain ⟨role, _ | peer⟩ := c
    · exact ih
    · exact sure_bind (sure_request _) fun _ => sure_bind ih fun _ => sure_pure _

theorem still_askReachable (counterparts : List (Role × Option PeerId)) :
    Still (Node.askReachable counterparts) := by
  induction counterparts with
  | nil => exact still_pure []
  | cons c rest ih =>
    obtain ⟨role, _ | peer⟩ := c
    · exact ih
    · refine still_bind (still_request fun _ _ _ h => h) fun _ => ?_
      exact still_bind ih fun _ => still_pure _

theorem sure_evict (evicted : Option Eviction) : Sure (Node.evict evicted) := by
  cases evicted with
  | none => exact sure_pure []
  | some e =>
    refine sure_bind ?_ fun _ => sure_bind (sure_askReachable _) fun _ => sure_pure _
    exact sure_bind (sure_request _) fun _ => sure_pure ()

/-- The store without the session that makes way. -/
def forgot (m : Store.Memory) : Option Eviction → Store.Memory
  | none => m
  | some e => m.remove e.id

/-- The store forgets the session that makes way; the node is as it was. -/
theorem runs_evict {evicted : Option Eviction} {r : Except Error (List Outbound)}
    (h : s.Runs (Node.evict evicted).run r s') : s' = ⟨s.node, forgot s.store evicted⟩ := by
  cases evicted with
  | none => exact still_pure [] _ _ _ h
  | some e =>
    have hrest : Still (Node.askReachable e.counterparts >>= fun targets =>
        pure (Outbound.toAll targets (.cancel e.id))) :=
      still_bind (still_askReachable _) fun _ => still_pure _
    obtain ⟨_, s₁, h, htell⟩ := runs_bind h
    obtain ⟨_, s₂, hremove, h⟩ := runs_bind h
    obtain ⟨_, rfl, -, rfl⟩ := runs_request hremove
    obtain ⟨rfl, rfl⟩ := runs_done h
    exact hrest _ _ _ htell

/-- The collaborators do not know of the node. -/
theorem runs_askWallet {p : Wallet.Asking α} {r : Except Error (Except Error α)}
    (h : s.Runs (Node.askWallet p).run r s') : (∃ outcome, r = .ok outcome) ∧ s' = s := by
  obtain ⟨p, rfl⟩ : ∃ p', ExceptT.mk p' = p := ⟨p.run, rfl⟩
  induction p with
  | done outcome =>
    obtain ⟨rfl, rfl⟩ := runs_done h
    exact ⟨⟨outcome, rfl⟩, rfl⟩
  | ask q next ih =>
    obtain ⟨a, s₁, rfl, hrest⟩ := runs_ask h
    exact ih a hrest

theorem runs_askLedger {p : Ledger.Asking α} {r : Except Error (Except Error α)}
    (h : s.Runs (Node.askLedger p).run r s') : (∃ outcome, r = .ok outcome) ∧ s' = s := by
  obtain ⟨p, rfl⟩ : ∃ p', ExceptT.mk p' = p := ⟨p.run, rfl⟩
  induction p with
  | done outcome =>
    obtain ⟨rfl, rfl⟩ := runs_done h
    exact ⟨⟨_, rfl⟩, rfl⟩
  | ask q next ih =>
    obtain ⟨a, s₁, rfl, hrest⟩ := runs_ask h
    exact ih a hrest

/-! ### How a run went -/

variable {b : β} {id : SessionId}

theorem runs_bind_ok (h : s.Runs (x >>= f).run (.ok b) s') :
    ∃ a s₁, s.Runs x.run (.ok a) s₁ ∧ s₁.Runs (f a).run (.ok b) s' := by
  obtain ⟨r, s₁, h₁, h₂⟩ := runs_bind h
  rcases r with e | a
  · cases (runs_done h₂).1
  · exact ⟨a, s₁, h₁, h₂⟩

/-- First something is looked at. -/
theorem Still.runs_bind_ok (hx : Still x) (h : s.Runs (x >>= f).run (.ok b) s') :
    ∃ a, s.Runs x.run (.ok a) s ∧ s.Runs (f a).run (.ok b) s' := by
  obtain ⟨a, s₁, h₁, h₂⟩ := Site.runs_bind_ok h
  obtain rfl := hx s _ s₁ h₁
  exact ⟨a, h₁, h₂⟩

theorem runs_orFail_ok {r : Except Error α} (h : s.Runs (orFail r >>= f).run (.ok b) s') :
    ∃ a, r = .ok a ∧ s.Runs (f a).run (.ok b) s' := by
  obtain ⟨a, h₁, h₂⟩ := (still_orFail r).runs_bind_ok h
  exact ⟨a, (runs_done h₁).1.symm, h₂⟩

theorem runs_check_ok {p : Prop} [Decidable p] {e : Error} {f : Unit → Running β}
    (h : s.Runs (if p then (throw e : Running Unit) >>= f else f ()).run (.ok b) s') :
    ¬p ∧ s.Runs (f ()).run (.ok b) s' := by
  split at h
  · cases (runs_done h).1
  · next hp => exact ⟨hp, h⟩

theorem runs_throw_ok {e : Error} : ¬s.Runs (throw e : Running β).run (.ok b) s' :=
  fun h => nomatch (runs_done h).1

/-- A program that asks first. -/
theorem runs_asked {q : Request} {f : q.Answer → Running β} {r : Except Error β}
    (h : s.Runs (ask q >>= f).run r s') :
    ∃ a s₁, s.Answers q a s₁ ∧ s₁.Runs (f a).run r s' :=
  runs_ask h

/-- A program that looks a session up first. -/
theorem runs_lookup_ok {f : Slot → Running β} {b : β}
    (h : s.Runs (lookup id >>= f).run (.ok b) s') :
    ∃ slot, s.node.directory.active = some (id, slot) ∧ s.Runs (f slot).run (.ok b) s' := by
  obtain ⟨slot, hlookup, h⟩ := (still_lookup id).runs_bind_ok h
  obtain ⟨env, hslot, -⟩ := runs_step hlookup
  exact ⟨slot, Directory.lookup_eq_ok.1 hslot.symm, h⟩

/-- A program that asks the store first. -/
theorem runs_stored {q : Store.Request} {f : q.Value → Running β} {r : Except Error β}
    (h : s.Runs (Node.Running.store q >>= f).run r s') :
    Runs ⟨s.node, (s.store.perform q).2⟩ (f (s.store.perform q).1).run r s' := by
  obtain ⟨a, s₁, ⟨rfl, rfl⟩, h⟩ := runs_ask h
  exact h

/-! ### Runs and histories -/

theorem Answers.answers {q : Request} {a : q.Answer} (h : s.Answers q a s') :
    s.node.Answers q a s'.node := by
  cases q with
  | step q =>
    obtain ⟨env, ha, rfl⟩ := h
    exact ⟨env, ha, rfl⟩
  | store q =>
    obtain ⟨-, rfl⟩ := h
    rfl
  | clock | freshId | isConnected | wallet | ledger =>
    obtain rfl := h
    rfl

theorem Runs.reaches {w : Process} {js : List Job} {c : Command}
    {p : Program Node.interface (Except Error Reply)} {r : Except Error Reply} (h : s.Runs p r s')
    (hw : w.Reaches ⟨s.node, js ++ [⟨c, p⟩]⟩) : w.Reaches ⟨s'.node, js ++ [⟨c, .done r⟩]⟩ := by
  induction h with
  | done => exact hw
  | @ask s s₁ s' q next a r ha h ih =>
    refine ih (hw.snoc ?_)
    have ht := Process.Ticks.answer (w := ⟨s.node, js ++ [⟨c, .ask q next⟩]⟩) (i := js.length)
      List.getElem?_concat_length ha.answers
    rwa [List.set_append_right _ _ (Nat.le_refl _), Nat.sub_self] at ht

/-- How a request is answered in given circumstances. -/
def answerIn (x : Circumstances) : (q : Request) → Site → q.Answer × Site
  | .step q, s => ((s.node.perform x.surroundings q).answer, s.stepped x.surroundings q)
  | .store q, s => (.ok (s.store.perform q).1, ⟨s.node, (s.store.perform q).2⟩)
  | q, s => ((Node.answerIn x q s.node).1, s)

theorem answers_answerIn (x : Circumstances) (q : Request) (s : Site) :
    s.Answers q (answerIn x q s).1 (answerIn x q s).2 := by
  cases q with
  | step q => exact ⟨x.surroundings, rfl, rfl⟩
  | store q => exact ⟨rfl, rfl⟩
  | clock | freshId | isConnected | wallet | ledger => rfl

theorem runs_run (x : Circumstances) (p : Program Node.interface α) (s : Site) :
    s.Runs p (p.run (answerIn x) s).1 (p.run (answerIn x) s).2 := by
  induction p generalizing s with
  | done a => exact .done
  | ask q next ih => exact .ask (answers_answerIn x q s) (ih _ _)

/-- One command after the other is told. -/
def told (x : Circumstances) (s : Site) (cs : List Command) : Site :=
  cs.foldl (fun s c => ((c.program s.node.config).run (answerIn x) s).2) s

end Site

namespace Process

variable {w w₀ : Process} {c : Command} {store : Store.Memory} {r : Except Error Reply} {s' : Site}

/-- A command that runs with nothing in between is part of a history. -/
theorem Reaches.run (hw : w₀.Reaches w)
    (h : Site.Runs ⟨w.node, store⟩ (c.program w.node.config) r s') :
    w₀.Reaches ⟨s'.node, w.jobs ++ [⟨c, .done r⟩]⟩ :=
  h.reaches (hw.snoc (.start c))

theorem AtRest.run (h : w.AtRest) (n : Node) (c : Command) (r : Except Error Reply) :
    AtRest ⟨n, w.jobs ++ [⟨c, .done r⟩]⟩ := by
  intro j hj
  rcases List.mem_append.1 hj with hj | hj
  · exact h j hj
  · rw [List.mem_singleton.1 hj]
    exact ⟨r, rfl⟩

theorem Reaches.told (hw : w₀.Reaches w) (hrest : w.AtRest) (x : Circumstances)
    (store : Store.Memory) (cs : List Command) :
    ∃ w', w₀.Reaches w' ∧ w'.AtRest ∧ w'.node = (Site.told x ⟨w.node, store⟩ cs).node := by
  induction cs generalizing w store with
  | nil => exact ⟨w, hw, hrest, rfl⟩
  | cons c cs ih =>
    have h := Site.runs_run x (c.program w.node.config) ⟨w.node, store⟩
    exact ih (hw.run h) (hrest.run _ c _) _

end Process

end EscrowMix
