import EscrowMix.Proofs.Node.Process
import EscrowMix.Proofs.Node.Slots

/-!
A command among others. Between any two of its requests, steps of other commands may be performed on
the node, in any number and with any arguments; its own steps are performed when their turn comes,
and whatever else it asks for is answered as the collaborators like. What happens is kept as a list
of events, so that what the command was told can be read off.
-/

namespace EscrowMix.Node

/-- A request is answered: a step by the node itself, anything else by a collaborator, which leaves
the node alone. -/
def Answers (n : Node) : (q : Request) → q.Answer → Node → Prop
  | .step q, a, n' => ∃ env, a = (n.perform env q).answer ∧ n' = (n.perform env q).node
  | _, _, n' => n' = n

/-- Something that happens while a command runs. -/
inductive Event where
  /-- A request of the command is answered. -/
  | own (q : Request) (a : q.Answer)
  /-- A step is performed for another command. -/
  | other (q : Step) (a : q.Answer)

/-- A program on a node runs to its end among others: what happens meanwhile, the result, and the
node that the last request leaves. -/
inductive Among {α : Type} : Node → Program interface α → List Event → α → Node → Prop
  | done {n : Node} {a : α} : Among n (.done a) [] a n
  | own {n n₁ n' : Node} {q : Request} {next : q.Answer → Program interface α} {a : q.Answer}
      {es : List Event} {r : α} (ha : n.Answers q a n₁) (h : Among n₁ (next a) es r n') :
      Among n (.ask q next) (.own q a :: es) r n'
  | other {n n' : Node} {q : Request} {next : q.Answer → Program interface α} {es : List Event}
      {r : α} (env : Surroundings) (q' : Step)
      (h : Among (n.perform env q').node (.ask q next) es r n') :
      Among n (.ask q next) (.other q' (n.perform env q').answer :: es) r n'

/-- What may happen between two steps of a command: steps of others, and answers of the ledger. -/
inductive Drifts : Node → List Event → Node → Prop
  | refl {n : Node} : Drifts n [] n
  | told {n n' : Node} {q : Ledger.Query} {a : Except Ledger.Error q.Value} {es : List Event}
      (h : Drifts n es n') : Drifts n (.own (.ledger q) a :: es) n'
  | other {n n' : Node} {es : List Event} (env : Surroundings) (q : Step)
      (h : Drifts (n.perform env q).node es n') :
      Drifts n (.other q (n.perform env q).answer :: es) n'

variable {α β : Type} {n n' n₁ n₂ : Node} {es es₁ es₂ : List Event} {r : β}

theorem Drifts.append (h : Drifts n es₁ n₁) (h' : Drifts n₁ es₂ n₂) : Drifts n (es₁ ++ es₂) n₂ := by
  induction h with
  | refl => exact h'
  | told _ ih => exact .told (ih h')
  | other env q _ ih => exact .other env q (ih h')

/-! ### Requests, one after the other -/

theorem among_done {a b : α} (h : Among n (.done a) es b n') : es = [] ∧ b = a ∧ n' = n := by
  cases h
  exact ⟨rfl, rfl, rfl⟩

theorem among_ask {q : Request} {next : q.Answer → Program interface β}
    (h : Among n (.ask q next) es r n') : ∃ es₁ n₁ a n₂ es₂, Drifts n es₁ n₁ ∧
      n₁.Answers q a n₂ ∧ Among n₂ (next a) es₂ r n' ∧ es = es₁ ++ .own q a :: es₂ := by
  generalize hp : (Program.ask q next : Program interface β) = p at h
  induction h with
  | done => cases hp
  | @own n n₁ n' q' next' a es r ha h _ =>
    cases hp
    exact ⟨[], n, a, n₁, es, .refl, ha, h, rfl⟩
  | other env q' _ ih =>
    cases hp
    obtain ⟨es₁, n₁, a, n₂, es₂, hd, ha, hnext, rfl⟩ := ih rfl
    exact ⟨_, n₁, a, n₂, es₂, .other env q' hd, ha, hnext, rfl⟩

open Running

variable {f : α → Running β} {b : β}

theorem among_orFail {x : Except Error α} (h : Among n (orFail x >>= f).run es (.ok b) n') :
    ∃ a, x = .ok a ∧ Among n (f a).run es (.ok b) n' := by
  rcases x with e | a
  · obtain ⟨-, hr, -⟩ := among_done h
    cases hr
  · exact ⟨a, rfl, h⟩

theorem among_lookup {id : SessionId} {f : Slot → Running β}
    (h : Among n (lookup id >>= f).run es (.ok b) n') : ∃ es₁ n₁ slot es₂, Drifts n es₁ n₁ ∧
      n₁.directory.lookup id = .ok slot ∧ Among n₁ (f slot).run es₂ (.ok b) n' ∧
      es = es₁ ++ .own (.step (.lookup id)) (.ok slot) :: es₂ := by
  obtain ⟨es₁, n₁, answer, n₂, es₂, hd, ⟨env, ha, hn⟩, hnext, rfl⟩ := among_ask h
  obtain rfl : n₂ = n₁ := hn
  obtain rfl : answer = n₂.directory.lookup id := ha
  have hnext : Among n₂ (orFail (n₂.directory.lookup id) >>= f).run es₂ (.ok b) n' := hnext
  obtain ⟨slot, hslot, hrest⟩ := among_orFail hnext
  exact ⟨es₁, n₂, slot, es₂, hd, hslot, hrest, by rw [hslot]⟩

theorem among_call {slot : Slot} {c : Session.Call} {f : c.Answer → Running β}
    (h : Among n (call slot c >>= f).run es (.ok b) n') : ∃ es₁ n₁ now a s es₂, Drifts n es₁ n₁ ∧
      (n₁.directory.session slot).perform now c = (.ok a, s) ∧
      Among (n₁.put slot s) (f a).run es₂ (.ok b) n' ∧
      es = es₁ ++ .own (.step (.call slot none c)) (.ok a, s) :: es₂ := by
  obtain ⟨es₁, n₁, answer, n₂, es₂, hd, ⟨env, ha, rfl⟩, hnext, rfl⟩ := among_ask h
  obtain rfl : answer = (n₁.directory.session slot).perform env.now c := ha
  have hnext : Among (n₁.put slot ((n₁.directory.session slot).perform env.now c).2)
    (orFail ((n₁.directory.session slot).perform env.now c).1 >>= f).run es₂ (.ok b) n' := hnext
  obtain ⟨a, ha, hrest⟩ := among_orFail hnext
  have hs : (n₁.directory.session slot).perform env.now c =
      (.ok a, ((n₁.directory.session slot).perform env.now c).2) := by rw [← ha]
  exact ⟨es₁, n₁, env.now, a, _, es₂, hd, hs, hrest, by rw [← hs]⟩

/-- The ledger is asked until its answers decide the outcome. -/
theorem among_askLedger {p : Ledger.Asking α} {f : Except Error α → Running β}
    (h : Among n (askLedger p >>= f).run es (.ok b) n') : ∃ es₁ n₁ log outcome es₂,
      Drifts n es₁ n₁ ∧ p.run.After log (.done outcome) ∧
      (∀ x ∈ log, Event.own (.ledger x.1) x.2 ∈ es₁) ∧
      Among n₁ (f (outcome.mapError .ledger)).run es₂ (.ok b) n' ∧ es = es₁ ++ es₂ := by
  obtain ⟨p, rfl⟩ : ∃ p', ExceptT.mk p' = p := ⟨p.run, rfl⟩
  induction p generalizing n es with
  | done outcome => exact ⟨[], n, [], outcome, es, .refl, .refl, nofun, h, rfl⟩
  | ask q next ih =>
    obtain ⟨es₁, n₁, a, n₂, es₂, hd, rfl, hnext, rfl⟩ := among_ask h
    obtain ⟨es₃, n₃, log, outcome, es₄, hd', hlog, hmem, hrest, rfl⟩ := ih a hnext
    refine ⟨es₁ ++ .own (.ledger q) a :: es₃, n₃, ⟨q, a⟩ :: log, outcome, es₄,
      hd.append (.told hd'), .ask hlog, fun x hx => ?_, hrest, by simp⟩
    rcases List.mem_cons.1 hx with rfl | hx
    · exact List.mem_append_right _ List.mem_cons_self
    · exact List.mem_append_right _ (List.mem_cons_of_mem _ (hmem x hx))

/-! ### Every run is one among others -/

/-- How a request is answered in given circumstances, where the store always fails. -/
def answerIn (x : Circumstances) : (q : Request) → Node → q.Answer × Node
  | .clock, n => (x.surroundings.now, n)
  | .freshId, n => (x.drawn, n)
  | .isConnected peer, n => (x.surroundings.isConnected peer, n)
  | .store _, n => (.error .unavailable, n)
  | .wallet q, n => (x.wallet q, n)
  | .ledger q, n => (x.ledger q, n)
  | .step q, n => ((n.perform x.surroundings q).answer, (n.perform x.surroundings q).node)

theorem answers_answerIn (x : Circumstances) (q : Request) (n : Node) :
    n.Answers q (answerIn x q n).1 (answerIn x q n).2 := by
  cases q with
  | step q => exact ⟨x.surroundings, rfl, rfl⟩
  | clock | freshId | isConnected | store | wallet | ledger => rfl

theorem among_run (x : Circumstances) (p : Program interface β) (n : Node) :
    ∃ es, Among n p es (p.run (answerIn x) n).1 (p.run (answerIn x) n).2 ∧
      ∀ q a, .other q a ∉ es := by
  induction p generalizing n with
  | done b => exact ⟨[], .done, fun _ _ => List.not_mem_nil⟩
  | ask q next ih =>
    obtain ⟨es, h, halone⟩ := ih (answerIn x q n).1 (answerIn x q n).2
    refine ⟨_, .own (answers_answerIn x q n) h, fun q' a hq => ?_⟩
    exact halone q' a ((List.mem_cons.1 hq).resolve_left Event.noConfusion)

end EscrowMix.Node
