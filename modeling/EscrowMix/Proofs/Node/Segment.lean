import EscrowMix.Node.Command

/-!
How far a command gets in one go. Other commands may run while the wallet or the ledger is asked,
so a running command is a row of segments: each begins at the start of the command or with an answer
of the wallet or the ledger, and lasts until the next such question or the end. What a segment does
is opened here one request at a time; the clock, the connections and the store answer as they like.
-/

namespace EscrowMix.Node

/-- The requests during which other commands may run. -/
def Request.isAwaited : Request → Bool
  | .wallet _ | .ledger _ => true
  | _ => false

/-- A segment of a program on a node: the identifiers that it draws, the node that it leaves, and
what is left of the program. -/
inductive Goes {α : Type} : Node → Program interface α → List SessionId → Node →
    Program interface α → Prop
  | done {n : Node} {a : α} : Goes n (.done a) [] n (.done a)
  | awaits {n : Node} {q : Request} {next : q.Answer → Program interface α}
      (hq : q.isAwaited = true) : Goes n (.ask q next) [] n (.ask q next)
  | clock {n n' : Node} {ids : List SessionId} {p : Program interface α}
      {next : UInt64 → Program interface α} (now : UInt64) (h : Goes n (next now) ids n' p) :
      Goes n (.ask .clock next) ids n' p
  | freshId {n n' : Node} {ids : List SessionId} {p : Program interface α}
      {next : SessionId → Program interface α} (id : SessionId) (h : Goes n (next id) ids n' p) :
      Goes n (.ask .freshId next) (id :: ids) n' p
  | isConnected {n n' : Node} {ids : List SessionId} {p : Program interface α} {peer : PeerId}
      {next : Bool → Program interface α} (isOpen : Bool) (h : Goes n (next isOpen) ids n' p) :
      Goes n (.ask (.isConnected peer) next) ids n' p
  | store {n n' : Node} {ids : List SessionId} {p : Program interface α} {q : Store.Request}
      {next : Except Store.Error q.Value → Program interface α}
      (answer : Except Store.Error q.Value) (h : Goes n (next answer) ids n' p) :
      Goes n (.ask (.store q) next) ids n' p
  | step {n n' : Node} {ids : List SessionId} {p : Program interface α} {q : Step}
      {next : q.Answer → Program interface α} (env : Surroundings)
      (h : Goes (n.perform env q).node (next (n.perform env q).answer) ids n' p) :
      Goes n (.ask (.step q) next) ids n' p

/-! ### Every program gets somewhere -/

/-- Runs a segment in given surroundings. Whatever is asked again gets the same answer again, and
the store always fails. -/
def advance {α : Type} (env : Surroundings) (id : SessionId) :
    Node → Program interface α → List SessionId × Node × Program interface α
  | n, .done a => ([], n, .done a)
  | n, .ask (.wallet q) next => ([], n, .ask (.wallet q) next)
  | n, .ask (.ledger q) next => ([], n, .ask (.ledger q) next)
  | n, .ask .clock next => advance env id n (next env.now)
  | n, .ask .freshId next =>
    let (ids, out) := advance env id n (next id)
    (id :: ids, out)
  | n, .ask (.isConnected peer) next => advance env id n (next (env.isConnected peer))
  | n, .ask (.store _) next => advance env id n (next (.error .unavailable))
  | n, .ask (.step q) next =>
    advance env id (n.perform env q).node (next (n.perform env q).answer)

theorem goes_advance {α : Type} (env : Surroundings) (id : SessionId) (n : Node)
    (p : Program interface α) : Goes n p (advance env id n p).1 (advance env id n p).2.1
      (advance env id n p).2.2 := by
  induction p generalizing n with
  | done a => exact .done
  | ask q next ih =>
    cases q with
    | clock => exact .clock env.now (ih _ n)
    | freshId => exact .freshId id (ih _ n)
    | isConnected peer => exact .isConnected (env.isConnected peer) (ih _ n)
    | store q => exact .store (.error .unavailable) (ih _ n)
    | wallet q => exact .awaits rfl
    | ledger q => exact .awaits rfl
    | step q => exact .step env (ih _ _)

/-! ### Requests, one at a time -/

variable {α β : Type} {n n' : Node} {ids : List SessionId} {p : Program interface α}

theorem goes_done {a : α} (h : Goes n (.done a) ids n' p) :
    ids = [] ∧ n' = n ∧ p = .done a := by
  cases h
  exact ⟨rfl, rfl, rfl⟩

theorem goes_awaited {q : Request} {next : q.Answer → Program interface α}
    (hq : q.isAwaited = true) (h : Goes n (.ask q next) ids n' p) :
    ids = [] ∧ n' = n ∧ p = .ask q next := by
  cases h with
  | awaits => exact ⟨rfl, rfl, rfl⟩
  | clock | freshId | isConnected | store | step => cases hq

theorem goes_clock {next : UInt64 → Program interface α} (h : Goes n (.ask .clock next) ids n' p) :
    ∃ now, Goes n (next now) ids n' p := by
  cases h with
  | awaits hq => cases hq
  | clock now h => exact ⟨now, h⟩

theorem goes_freshId {next : SessionId → Program interface α}
    (h : Goes n (.ask .freshId next) ids n' p) :
    ∃ id ids', ids = id :: ids' ∧ Goes n (next id) ids' n' p := by
  cases h with
  | awaits hq => cases hq
  | freshId id h => exact ⟨id, _, rfl, h⟩

theorem goes_isConnected {peer : PeerId} {next : Bool → Program interface α}
    (h : Goes n (.ask (.isConnected peer) next) ids n' p) :
    ∃ isOpen, Goes n (next isOpen) ids n' p := by
  cases h with
  | awaits hq => cases hq
  | isConnected isOpen h => exact ⟨isOpen, h⟩

theorem goes_store {q : Store.Request} {next : Except Store.Error q.Value → Program interface α}
    (h : Goes n (.ask (.store q) next) ids n' p) : ∃ answer, Goes n (next answer) ids n' p := by
  cases h with
  | awaits hq => cases hq
  | store answer h => exact ⟨answer, h⟩

theorem goes_step {q : Step} {next : q.Answer → Program interface α}
    (h : Goes n (.ask (.step q) next) ids n' p) :
    ∃ env, Goes (n.perform env q).node (next (n.perform env q).answer) ids n' p := by
  cases h with
  | awaits hq => cases hq
  | step env h => exact ⟨env, h⟩

/-! ### Commands, one action at a time -/

/-- The node with another session in a slot. -/
def put (n : Node) (slot : Slot) (s : Session) : Node :=
  { n with directory := n.directory.update slot s }

/-- What a call leaves, and what it hands to the store. -/
theorem callOn_eq {slot : Slot} {now : UInt64} {c : Session.Call} {answer : Except Error c.Answer}
    {s : Session} (hs : (n.directory.session slot).perform now c = (answer, s)) :
    n.callOn now slot c = ⟨(answer, s), n.put slot s,
      if isSaved c answer then [persist s] else []⟩ := by
  unfold callOn
  rw [hs]
  rfl

open Running

/-- The command failed here. -/
def Fails (n : Node) (e : Error) (ids : List SessionId) (n' : Node)
    (p : Program interface (Except Error α)) : Prop :=
  ids = [] ∧ n' = n ∧ p = .done (.error e)

section

variable {p : Program interface (Except Error β)} {f : α → Running β}

theorem goes_assoc {γ : Type} {x : Running γ} {g : γ → Running α}
    (h : Goes n ((x >>= g) >>= f).run ids n' p) :
    Goes n (x >>= fun c => g c >>= f).run ids n' p :=
  bind_assoc x g f ▸ h

theorem goes_pure {b : β} (h : Goes n (pure b : Running β).run ids n' p) :
    ids = [] ∧ n' = n ∧ p = .done (.ok b) :=
  goes_done h

theorem goes_throw {e : Error} (h : Goes n (throw e : Running β).run ids n' p) :
    Fails n e ids n' p :=
  goes_done h

theorem goes_orFail {x : Except Error α} (h : Goes n (orFail x >>= f).run ids n' p) :
    (∃ a, x = .ok a ∧ Goes n (f a).run ids n' p) ∨ ∃ e, x = .error e ∧ Fails n e ids n' p := by
  rcases x with e | a
  · exact .inr ⟨e, rfl, goes_done h⟩
  · exact .inl ⟨a, rfl, h⟩

/-- A check that throws lets only the other case through. -/
theorem goes_check {c : Prop} [Decidable c] {e : Error} {f : Unit → Running β}
    (h : Goes n (if c then (throw e : Running Unit) >>= f else f ()).run ids n' p) :
    (¬c ∧ Goes n (f ()).run ids n' p) ∨ (c ∧ Fails n e ids n' p) := by
  split at h
  · next hc => exact .inr ⟨hc, goes_done h⟩
  · next hc => exact .inl ⟨hc, h⟩

/-- A locked step whose answer is used as it is. -/
theorem goes_ask {q : Step} {f : q.Answer → Running β}
    (h : Goes n (ask (.step q) >>= f).run ids n' p) :
    ∃ env, Goes (n.perform env q).node (f (n.perform env q).answer).run ids n' p :=
  goes_step h

/-- A locked step whose refusal is that of the command. -/
theorem goes_refusable {q : Step} {hq : q.Answer = Except Error α}
    (h : Goes n (step q hq >>= f).run ids n' p) : ∃ env,
      (∃ a, cast hq (n.perform env q).answer = .ok a ∧
        Goes (n.perform env q).node (f a).run ids n' p) ∨
      ∃ e, cast hq (n.perform env q).answer = .error e ∧
        Fails (n.perform env q).node e ids n' p := by
  obtain ⟨env, h⟩ := goes_step h
  refine ⟨env, ?_⟩
  have h : Goes (n.perform env q).node
      (orFail (cast hq (n.perform env q).answer) >>= f).run ids n' p := h
  exact goes_orFail h

theorem goes_lookup {id : SessionId} {f : Slot → Running β}
    (h : Goes n (lookup id >>= f).run ids n' p) :
    (∃ slot, n.directory.lookup id = .ok slot ∧ Goes n (f slot).run ids n' p) ∨
    ∃ e, n.directory.lookup id = .error e ∧ Fails n e ids n' p := by
  obtain ⟨env, h⟩ := goes_refusable h
  exact h

theorem goes_call {slot : Slot} {c : Session.Call} {f : c.Answer → Running β}
    (h : Goes n (call slot c >>= f).run ids n' p) : ∃ now answer s,
      (n.directory.session slot).perform now c = (answer, s) ∧
      ((∃ a, answer = .ok a ∧ Goes (n.put slot s) (f a).run ids n' p) ∨
        ∃ e, answer = .error e ∧ Fails (n.put slot s) e ids n' p) := by
  obtain ⟨env, h⟩ := goes_step h
  refine ⟨env.now, _, _, rfl, ?_⟩
  have h : Goes (n.put slot ((n.directory.session slot).perform env.now c).2)
      (orFail ((n.directory.session slot).perform env.now c).1 >>= f).run ids n' p := h
  exact goes_orFail h

theorem goes_ensureConnected {role : Role} {peer : PeerId} {f : Unit → Running β}
    (h : Goes n (ensureConnected role peer >>= f).run ids n' p) :
    Goes n (f ()).run ids n' p ∨ ∃ e, Fails n e ids n' p := by
  obtain ⟨isOpen, h⟩ := goes_isConnected h
  cases isOpen with
  | true => exact .inl h
  | false => exact .inr ⟨.peerDisconnected role, goes_done h⟩

theorem goes_storeAnyway {q : Store.Request} {f : Unit → Running β}
    (h : Goes n (storeAnyway q >>= f).run ids n' p) : Goes n (f ()).run ids n' p := by
  obtain ⟨_, h⟩ := goes_store h
  exact h

/-- Finding out which connections are open changes nothing. -/
theorem goes_askReachable (counterparts : List (Role × Option PeerId)) {f : Targets → Running β}
    (h : Goes n (askReachable counterparts >>= f).run ids n' p) :
    ∃ targets, Goes n (f targets).run ids n' p := by
  induction counterparts generalizing f with
  | nil => exact ⟨[], h⟩
  | cons c rest ih =>
    obtain ⟨role, _ | peer⟩ := c
    · exact ih h
    · obtain ⟨isOpen, h⟩ := goes_isConnected h
      have h : Goes n ((askReachable rest >>= fun targets =>
          pure (if isOpen then (role, peer) :: targets else targets)) >>= f).run ids n' p := h
      obtain ⟨targets, h⟩ := ih (goes_assoc h)
      exact ⟨_, h⟩

/-- Whoever is told about a replaced session is told that it was cancelled. -/
theorem goes_evict {evicted : Option Eviction} {f : List Outbound → Running β}
    (h : Goes n (evict evicted >>= f).run ids n' p) :
    ∃ out : List Outbound, (∀ m ∈ out, ∃ id, m.message = .cancel id) ∧
      Goes n (f out).run ids n' p := by
  rcases evicted with _ | e
  · exact ⟨[], nofun, h⟩
  · have h := goes_storeAnyway (goes_assoc h)
    obtain ⟨targets, h⟩ := goes_askReachable _ (goes_assoc h)
    refine ⟨_, fun m hm => ?_, h⟩
    obtain ⟨target, -, rfl⟩ := List.mem_map.1 hm
    exact ⟨e.id, rfl⟩

/-- Bringing the store up to date changes nothing on the node. -/
theorem goes_recordSweep (outcomes : List SweepOutcome) {f : Unit → Running β}
    (h : Goes n (recordSweep outcomes >>= f).run ids n' p) : Goes n (f ()).run ids n' p := by
  induction outcomes with
  | nil => exact h
  | cons o rest ih =>
    cases o with
    | reset id =>
      exact ih (goes_storeAnyway (goes_assoc h))
    | flagged id =>
      obtain ⟨env, h⟩ := goes_step h
      generalize (n.perform env (.lookup id)).answer = found at h
      rcases found with e | slot
      · exact ih h
      · obtain ⟨_, h⟩ := goes_step h
        exact ih h

end

/-! ### Questions to the collaborators -/

section

variable {f : Except Error α → Running β} {p : Program interface (Except Error β)}

/-- A run of questions to the wallet waits at the next one, or has come to its end. -/
theorem goes_askWallet {rest : Wallet.Asking α}
    (h : Goes n (askWallet rest >>= f).run ids n' p) :
    (∃ q next, rest.run = .ask q next ∧ ids = [] ∧ n' = n ∧ p = (askWallet rest >>= f).run) ∨
    ∃ r, rest.run = .done r ∧ Goes n (f r).run ids n' p := by
  cases hr : rest.run with
  | done r =>
    obtain rfl : rest = ExceptT.mk (.done r) := hr
    exact .inr ⟨r, rfl, h⟩
  | ask q next =>
    obtain rfl : rest = ExceptT.mk (.ask q next) := hr
    exact .inl ⟨q, next, rfl, goes_awaited (q := .wallet q) rfl h⟩

theorem goes_askLedger {rest : Ledger.Asking α}
    (h : Goes n (askLedger rest >>= f).run ids n' p) :
    (∃ q next, rest.run = .ask q next ∧ ids = [] ∧ n' = n ∧ p = (askLedger rest >>= f).run) ∨
    ∃ r, rest.run = .done r ∧ Goes n (f (r.mapError .ledger)).run ids n' p := by
  cases hr : rest.run with
  | done r =>
    obtain rfl : rest = ExceptT.mk (.done r) := hr
    exact .inr ⟨r, rfl, h⟩
  | ask q next =>
    obtain rfl : rest = ExceptT.mk (.ask q next) := hr
    exact .inl ⟨q, next, rfl, goes_awaited (q := .ledger q) rfl h⟩

end

end EscrowMix.Node
