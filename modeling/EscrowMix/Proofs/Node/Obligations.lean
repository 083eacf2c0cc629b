import EscrowMix.Proofs.Node.Interleaving

/-!
Whoever claims a transition settles it. A command that was handed a ticket comes to use it, whatever
it is told in between: the ticket completes the transition or is given back.
-/

namespace EscrowMix

/-! ### Stored sessions have nothing outstanding -/

namespace Codec

variable {α β : Type} {P : β → Prop}

/-- Whatever is read has the property. -/
def Gives (r : Reader β) (P : β → Prop) : Prop := ∀ bs b rest, r bs = .ok (b, rest) → P b

theorem gives_pure {b : β} (h : P b) : Gives (pure b) P := by
  intro bs b' rest hb
  cases hb
  exact h

theorem gives_fail (e : Error) : Gives (fail e) P := nofun

theorem gives_bind {r : Reader α} {f : α → Reader β} (h : ∀ a, Gives (f a) P) :
    Gives (r >>= f) P := by
  intro bs b rest hb
  obtain ⟨⟨a, rest'⟩, -, hb⟩ := bind_eq_ok.1 hb
  exact h a rest' b rest hb

theorem gives_fail_bind (e : Error) {f : α → Reader β} : Gives (fail e >>= f) P := nofun

theorem gives_decode [Codec β] (h : Gives (read : Reader β) P) {bs : Bytes} {b : β}
    (hb : decode bs = .ok b) : P b := by
  unfold decode at hb
  split at hb
  · cases hb
  · next hr =>
    cases hb
    exact h _ _ _ hr
  · cases hb

end Codec

open Codec in
theorem Session.ofSnapshot_pending {bs : Bytes} {s : Session} (h : ofSnapshot bs = .ok s) :
    s.pending = none := by
  refine gives_decode (P := fun s : Session => s.pending = none) ?_ (mapError_eq_ok.1 h)
  -- The magic bytes and the version come first.
  refine gives_bind fun found => ?_
  dsimp only
  split
  · exact gives_fail_bind _
  refine gives_bind fun version => ?_
  split
  · exact gives_fail_bind _
  refine gives_bind fun id => gives_bind fun status => gives_bind fun lastActivity =>
    gives_bind fun schedule => gives_bind fun constraints => gives_bind fun fees =>
    gives_bind fun escrow => gives_bind fun parties => gives_bind fun record =>
    gives_bind fun escrowFailure => gives_bind fun needsIntervention => gives_bind fun log => ?_
  split
  · exact gives_pure rfl
  · exact gives_fail _

namespace Node

variable {α β : Type} {slot : Slot} {t : Ticket}

/-- The ticket that a request hands out, and the slot that it is for. -/
def Request.claimed? : (q : Request) → q.Answer → Option (Slot × Ticket)
  | .step q, a => q.claimed? a
  | _, _ => none

/-- The request uses the ticket, and for its own transition. -/
def Request.Uses (slot : Slot) (t : Ticket) : Request → Prop
  | .step (.call slot' _ c) => slot' = slot ∧ c.ticket? = some t ∧ c.IsMatched
  | _ => False

/-- Only sessions that have begun and have nothing outstanding are put into a slot. -/
def Request.IsSound : Request → Prop
  | .step (.install s _) => s.status ≠ .notBegun ∧ s.pending = none
  | _ => True

/-- Whatever it is told, the program comes to use the ticket. -/
def Owes (slot : Slot) (t : Ticket) : Program interface α → Prop
  | .done _ => False
  | .ask q next => q.Uses slot t ∨ ∀ a, Owes slot t (next a)

/-- The program settles what it claims. -/
def Responsible : Program interface α → Prop
  | .done _ => True
  | .ask q next => q.IsSound ∧ ∀ n a n', Answers n q a n' →
    Responsible (next a) ∧ ∀ slot t, q.claimed? a = some (slot, t) → Owes slot t (next a)

/-- The program claims nothing. -/
def Plain : Program interface α → Prop
  | .done _ => True
  | .ask q next => q.IsSound ∧ ∀ a, q.claimed? a = none ∧ Plain (next a)

/-! ### Programs in a row -/

theorem Owes.bind {p : Program interface α} {f : α → Program interface β} (h : Owes slot t p) :
    Owes slot t (p.bind f) := by
  induction p with
  | done a => exact h.elim
  | ask q next ih => exact h.imp_right fun h a => ih a (h a)

theorem Responsible.bind {p : Program interface α} {f : α → Program interface β}
    (hp : Responsible p) (hf : ∀ a, Responsible (f a)) : Responsible (p.bind f) := by
  induction p with
  | done a => exact hf a
  | ask q next ih =>
    refine ⟨hp.1, fun n a n' ha => ?_⟩
    obtain ⟨hnext, howes⟩ := hp.2 n a n' ha
    exact ⟨ih a hnext, fun slot t hc => (howes slot t hc).bind⟩

theorem Plain.responsible {p : Program interface α} (h : Plain p) : Responsible p := by
  induction p with
  | done a => trivial
  | ask q next ih =>
    refine ⟨h.1, fun n a n' _ => ?_⟩
    obtain ⟨hc, hnext⟩ := h.2 a
    refine ⟨ih a hnext, fun slot t hc' => ?_⟩
    rw [hc] at hc'
    cases hc'

theorem Plain.bind {p : Program interface α} {f : α → Program interface β} (hp : Plain p)
    (hf : ∀ a, Plain (f a)) : Plain (p.bind f) := by
  induction p with
  | done a => exact hf a
  | ask q next ih => exact ⟨hp.1, fun a => ⟨(hp.2 a).1, ih a (hp.2 a).2⟩⟩

open Running

variable {x : Running α} {f : α → Running β}

theorem responsible_bind (hx : Responsible x.run) (hf : ∀ a, Responsible (f a).run) :
    Responsible (x >>= f).run := by
  refine hx.bind fun r => ?_
  cases r with
  | error e => trivial
  | ok a => exact hf a

theorem plain_bind (hx : Plain x.run) (hf : ∀ a, Plain (f a).run) : Plain (x >>= f).run := by
  refine hx.bind fun r => ?_
  cases r with
  | error e => trivial
  | ok a => exact hf a

/-- A condition that throws claims nothing. -/
theorem plain_check {c : Prop} [Decidable c] {e : Error} {f : Unit → Running β}
    (hf : Plain (f ()).run) :
    Plain (if c then (throw e : Running Unit) >>= f else f ()).run := by
  split
  · trivial
  · exact hf

theorem plain_if {c : Prop} [Decidable c] {x y : Running α} (hx : Plain x.run)
    (hy : Plain y.run) : Plain (if c then x else y).run := by
  split
  · exact hx
  · exact hy

theorem plain_orFail (r : Except Error α) : Plain (orFail r).run := trivial

/-! ### Requests -/

/-- A request other than a step claims nothing. -/
theorem plain_ask {q : Request} (hq : q.IsSound) (hc : ∀ a, q.claimed? a = none) :
    Plain (ask q).run :=
  ⟨hq, fun a => ⟨hc a, trivial⟩⟩

theorem plain_step {q : Step} {h : q.Answer = Except Error α} (hq : (Request.step q).IsSound)
    (hc : ∀ a, q.claimed? a = none) : Plain (step q h).run :=
  ⟨hq, fun a => ⟨hc a, trivial⟩⟩

theorem plain_store (q : Store.Request) : Plain (Running.store q).run :=
  ⟨trivial, fun _ => ⟨rfl, trivial⟩⟩

theorem plain_lookup (id : SessionId) : Plain (lookup id).run :=
  plain_step trivial fun _ => rfl

/-- The calls that hand out no ticket. -/
def isClaim : Session.Call → Bool
  | .claimMultisig | .claimVerification _ | .claimSignature | .claimCommit _ => true
  | _ => false

theorem claimed?_of_not_isClaim {c : Session.Call} (h : isClaim c = false)
    (a : Except Error c.Answer) : c.claimed? a = none := by
  cases a <;> cases c <;> first | rfl | cases h

theorem plain_callAt {c : Session.Call} (h : isClaim c = false) (time : Option UInt64) :
    Plain (ask (.step (.call slot time c))).run :=
  plain_ask trivial fun a => Option.map_eq_none_iff.2 (claimed?_of_not_isClaim h a.1)

theorem plain_call {c : Session.Call} (h : isClaim c = false) : Plain (call slot c).run :=
  plain_bind (plain_callAt h none) fun a => plain_orFail a.1

theorem plain_announce {c : Session.Call} (h : isClaim c = false) :
    Plain (step (.announce slot c) rfl).run :=
  plain_step trivial fun _ => Option.map_eq_none_iff.2 (claimed?_of_not_isClaim h _)

theorem plain_askWallet (p : Wallet.Asking α) : Plain (askWallet p).run := by
  obtain ⟨p, rfl⟩ : ∃ p', ExceptT.mk p' = p := ⟨p.run, rfl⟩
  induction p with
  | done r => trivial
  | ask q next ih => exact ⟨trivial, fun a => ⟨rfl, ih a⟩⟩

theorem plain_askLedger (p : Ledger.Asking α) : Plain (askLedger p).run := by
  obtain ⟨p, rfl⟩ : ∃ p', ExceptT.mk p' = p := ⟨p.run, rfl⟩
  induction p with
  | done r => trivial
  | ask q next ih => exact ⟨trivial, fun a => ⟨rfl, ih a⟩⟩

theorem plain_askReachable (counterparts : List (Role × Option PeerId)) :
    Plain (askReachable counterparts).run := by
  induction counterparts with
  | nil => trivial
  | cons c rest ih =>
    obtain ⟨role, _ | peer⟩ := c
    · exact ih
    · exact plain_bind (plain_ask trivial fun _ => rfl) fun _ => plain_bind ih fun _ => trivial

theorem plain_evict (evicted : Option Eviction) : Plain (evict evicted).run := by
  cases evicted with
  | none => trivial
  | some e =>
    refine plain_bind ?_ fun _ => plain_bind (plain_askReachable _) fun _ => trivial
    exact plain_bind (plain_ask trivial fun _ => rfl) fun _ => trivial

theorem plain_ensureConnected (role : Role) (peer : PeerId) :
    Plain (ensureConnected role peer).run := by
  refine plain_bind (plain_ask trivial fun _ => rfl) fun isOpen => ?_
  cases isOpen <;> trivial

theorem plain_discardIfUnused (slot : Slot) (id : SessionId) :
    Plain (discardIfUnused slot id).run := by
  refine plain_bind (plain_ask trivial fun _ => rfl) fun s => ?_
  exact plain_if (plain_ask (q := .step (.drop id)) trivial fun _ => rfl) trivial

theorem plain_recordSweep (outcomes : List SweepOutcome) : Plain (recordSweep outcomes).run := by
  induction outcomes with
  | nil => trivial
  | cons o rest ih =>
    cases o with
    | reset id =>
      refine plain_bind ?_ fun _ => ih
      exact plain_bind (plain_ask trivial fun _ => rfl) fun _ => trivial
    | flagged id =>
      refine plain_bind (plain_ask trivial fun _ => rfl) fun found => ?_
      rcases found with e | slot
      · exact ih
      · exact plain_bind (plain_ask trivial fun _ => rfl) fun _ => ih

/-- What is restored was read from a snapshot, and is in progress. -/
theorem plain_orFail_bind {r : Except Error α} (h : ∀ a, r = .ok a → Plain (f a).run) :
    Plain (orFail r >>= f).run := by
  cases r with
  | error e => trivial
  | ok a => exact h a rfl

theorem plain_restoreFrom (ids : List SessionId) (restored : Option SessionId) :
    Plain (restoreFrom ids restored).run := by
  induction ids generalizing restored with
  | nil => trivial
  | cons id ids ih =>
    refine plain_bind (plain_store _) fun found => ?_
    rcases found with _ | bytes
    · exact ih restored
    refine plain_orFail_bind fun s hs => ?_
    by_cases hprogress : s.isInProgress = true
    · have hsound : s.status ≠ .notBegun ∧ s.pending = none := by
        refine ⟨fun hst => ?_, Session.ofSnapshot_pending hs⟩
        rw [Session.isInProgress, hst] at hprogress
        cases hprogress
      rw [if_neg (by rw [hprogress]; decide)]
      split
      · exact ih restored
      · refine plain_bind (plain_ask trivial fun _ => rfl) fun now => ?_
        refine plain_bind (plain_step hsound fun _ => rfl) fun out => ?_
        exact plain_bind (plain_evict _) fun _ => ih _
    · rw [if_pos (by simp [hprogress])]
      exact plain_bind (plain_store _) fun _ => ih restored

/-! ### Claims and what follows them -/

section

variable {c : Session.Call}

/-- After a claim that succeeded, the ticket is owed. -/
theorem responsible_claim {f : c.Answer → Running β} (hf : ∀ a, Responsible (f a).run)
    (howes : ∀ a t, c.claimed? (.ok a) = some t → c.Claims t.transition → Owes slot t (f a).run) :
    Responsible (call slot c >>= f).run := by
  refine ⟨trivial, ?_⟩
  rintro n answer n' ⟨env, ha, -⟩
  obtain rfl : answer = (n.directory.session slot).perform env.now c := ha
  generalize hs : (n.directory.session slot).perform env.now c = out
  obtain ⟨e | a, s'⟩ := out
  · refine ⟨trivial, fun slot' t ht => ?_⟩
    cases c <;> cases ht
  · refine ⟨hf a, fun slot' t ht => ?_⟩
    obtain ⟨t', ht', he⟩ := Option.map_eq_some_iff.1 ht
    cases he
    exact howes a t ht' (Session.perform_claims hs ht')

/-- The same for a claim that every counterpart must be connected for. -/
theorem responsible_announced {f : (Role × Targets) × c.Answer → Running β}
    (hf : ∀ out, Responsible (f out).run)
    (howes : ∀ audience a t, c.claimed? (.ok a) = some t → c.Claims t.transition →
      Owes slot t (f (audience, a)).run) :
    Responsible (step (.announce slot c) rfl >>= f).run := by
  refine ⟨trivial, ?_⟩
  rintro n answer n' ⟨env, ha, -⟩
  obtain rfl : answer = (n.announceOn env slot c).answer := ha
  rcases announceOn_cases n env slot c with ⟨e, ha, -⟩ | ⟨role, targets, a, s', -, hs, ha, -⟩
  · rw [ha]
    refine ⟨trivial, fun slot' t ht => ?_⟩
    cases c <;> cases ht
  · rw [ha]
    rcases a with e | a
    · refine ⟨trivial, fun slot' t ht => ?_⟩
      cases c <;> cases ht
    · refine ⟨hf _, fun slot' t ht => ?_⟩
      obtain ⟨t', ht', he⟩ := Option.map_eq_some_iff.1 ht
      cases he
      exact howes (role, targets) a t ht' (Session.perform_claims hs ht')

theorem owes_call {f : c.Answer → Running β} (ht : c.ticket? = some t) (hm : c.IsMatched) :
    Owes slot t (call slot c >>= f).run :=
  .inl ⟨rfl, ht, hm⟩

end

theorem owes_giveBack (e : Error) : Owes slot t (giveBack slot t e : Running α).run :=
  owes_call rfl trivial

theorem plain_giveBack (e : Error) : Plain (giveBack slot t e : Running α).run :=
  plain_bind (plain_call rfl) fun _ => trivial

/-- Whatever a collaborator answers, what comes afterwards is owed. -/
theorem owes_askWallet {p : Wallet.Asking α} {f : Except Error α → Running β}
    (h : ∀ r, Owes slot t (f r).run) : Owes slot t (askWallet p >>= f).run := by
  obtain ⟨p, rfl⟩ : ∃ p', ExceptT.mk p' = p := ⟨p.run, rfl⟩
  induction p with
  | done r => exact h r
  | ask q next ih => exact .inr ih

theorem owes_askLedger {p : Ledger.Asking α} {f : Except Error α → Running β}
    (h : ∀ r, Owes slot t (f r).run) : Owes slot t (askLedger p >>= f).run := by
  obtain ⟨p, rfl⟩ : ∃ p', ExceptT.mk p' = p := ⟨p.run, rfl⟩
  induction p with
  | done r => exact h (r.mapError .ledger)
  | ask q next ih => exact .inr ih

/-! ### Commands -/

theorem responsible_deriveMultisig (id : SessionId) : Responsible (deriveMultisig id).run := by
  refine responsible_bind (plain_lookup id).responsible fun slot => ?_
  refine responsible_claim (fun answer => ?_) fun answer t ht hclaims => ?_
  · refine (plain_bind (plain_askWallet _) fun r => ?_).responsible
    rcases r with e | escrow
    · exact plain_giveBack e
    · exact plain_bind (plain_call rfl) fun _ => trivial
  · cases ht
    refine owes_askWallet fun r => ?_
    rcases r with e | escrow
    · exact owes_giveBack e
    · exact owes_call rfl hclaims

theorem responsible_verifyDeposits (id : SessionId) (config : Config) :
    Responsible (verifyDeposits id config).run := by
  refine responsible_bind (plain_lookup id).responsible fun slot => ?_
  refine responsible_claim (fun answer => ?_) fun answer t ht hclaims => ?_
  · refine (plain_bind (plain_askLedger _) fun r => ?_).responsible
    rcases r with e | verdict
    · exact plain_giveBack e
    · exact plain_bind (plain_call rfl) fun _ => trivial
  · cases ht
    refine owes_askLedger fun r => ?_
    rcases r with e | verdict
    · exact owes_giveBack e
    · exact owes_call rfl hclaims

theorem responsible_contributeSignature (id : SessionId) :
    Responsible (contributeSignature id).run := by
  refine responsible_bind (plain_lookup id).responsible fun slot => ?_
  refine responsible_announced (fun answer => ?_) fun audience answer t ht hclaims => ?_
  · refine (plain_bind (plain_askWallet _) fun r => ?_).responsible
    rcases r with e | ⟨candidate, count⟩
    · exact plain_giveBack e
    · exact plain_bind (plain_call rfl) fun _ => trivial
  · cases ht
    refine owes_askWallet fun r => ?_
    rcases r with e | ⟨candidate, count⟩
    · exact owes_giveBack e
    · exact owes_call rfl hclaims

theorem responsible_broadcast (slot : Slot) (final : Option Bytes) :
    Responsible (broadcast slot final).run := by
  refine responsible_claim (fun answer => ?_) fun answer t ht hclaims => ?_
  · refine (plain_bind (plain_askWallet _) fun r => ?_).responsible
    rcases r with e | _
    · exact plain_giveBack e
    · exact plain_bind (plain_call rfl) fun _ => trivial
  · cases ht
    refine owes_askWallet fun r => ?_
    rcases r with e | _
    · exact owes_giveBack e
    · exact owes_call rfl hclaims

/-- The beginning of a session, which ends with dropping it if it is refused. -/
theorem plain_beginSend (destinations : List Address) (each : Amount)
    (constraints : CoinConstraints) (mixer guarantor : PeerId) :
    Plain (beginSend destinations each constraints mixer guarantor).run := by
  refine plain_bind (plain_orFail _) fun schedule => ?_
  refine plain_check ?_
  refine plain_bind (plain_ensureConnected _ _) fun _ => ?_
  refine plain_bind (plain_ensureConnected _ _) fun _ => ?_
  refine plain_bind (plain_ask trivial fun _ => rfl) fun id => ?_
  refine plain_bind (plain_ask trivial fun _ => rfl) fun now => ?_
  refine plain_bind (plain_step trivial fun _ => rfl) fun enrolled => ?_
  refine plain_bind (plain_evict _) fun cancellations => ?_
  refine plain_bind (plain_callAt rfl _) fun out => ?_
  obtain ⟨e | _, s⟩ := out
  · exact plain_bind (plain_discardIfUnused _ _) fun _ => trivial
  · trivial

theorem plain_onInvite (from_ : PeerId) (id : SessionId) (role : Role) (schedule : Schedule)
    (fees : FeePolicy) (constraints : CoinConstraints) (config : Config) :
    Plain (onInvite from_ id role schedule fees constraints config).run := by
  refine plain_bind (plain_ensureConnected _ _) fun _ => ?_
  refine plain_check ?_
  refine plain_check ?_
  refine plain_bind (plain_orFail _) fun _ => ?_
  refine plain_bind (plain_ask trivial fun _ => rfl) fun now => ?_
  refine plain_bind (plain_step trivial fun _ => rfl) fun enrolled => ?_
  refine plain_bind (plain_evict _) fun cancellations => ?_
  refine plain_bind (plain_callAt rfl _) fun out => ?_
  obtain ⟨e | _, s⟩ := out
  · exact plain_bind (plain_discardIfUnused _ _) fun _ => trivial
  · exact plain_bind (plain_ask trivial fun _ => rfl) fun _ => trivial

/-- Every command settles what it claims. -/
theorem program_responsible (config : Config) (c : Command) :
    Responsible (c.program config) := by
  cases c with
  | beginSend => exact (plain_beginSend ..).responsible
  | onInvite => exact (plain_onInvite ..).responsible
  | deriveMultisig id => exact responsible_deriveMultisig id
  | verifyDeposits id => exact responsible_verifyDeposits id config
  | contributeSignature id => exact responsible_contributeSignature id
  | commit id =>
    refine responsible_bind (plain_lookup id).responsible fun slot => ?_
    refine responsible_bind (responsible_broadcast slot none) fun tx => Plain.responsible ?_
    exact plain_bind (plain_ask trivial fun _ => rfl) fun _ => trivial
  | onCommit id final =>
    refine responsible_bind (plain_lookup id).responsible fun slot => ?_
    refine responsible_bind (plain_ask (q := .step (.view slot)) trivial fun _ => rfl).responsible
      fun s => ?_
    split
    · split <;> trivial
    · exact responsible_bind (responsible_broadcast slot (some final)) fun _ => trivial
  | attachPeer id | onAddressAndKey _ id | onDepositNotice id | onSignatureRound id
  | markReclaimable id =>
    refine Plain.responsible (plain_bind (plain_lookup id) fun slot => ?_)
    exact plain_bind (plain_call rfl) fun _ => trivial
  | setOwnKey id | recordOwnDeposit id =>
    refine Plain.responsible (plain_bind (plain_lookup id) fun slot => ?_)
    exact plain_bind (plain_announce rfl) fun _ => trivial
  | cancel id =>
    refine Plain.responsible (plain_bind (plain_lookup id) fun slot => ?_)
    refine plain_bind (plain_step trivial fun _ => rfl) fun targets => ?_
    exact plain_bind (plain_ask trivial fun _ => rfl) fun _ => trivial
  | onCancel id =>
    refine Plain.responsible (plain_bind (plain_lookup id) fun slot => ?_)
    refine plain_bind (plain_call rfl) fun _ => ?_
    exact plain_bind (plain_ask trivial fun _ => rfl) fun _ => trivial
  | sweep =>
    refine Plain.responsible (plain_bind (plain_ask trivial fun _ => rfl) fun now => ?_)
    refine plain_bind (plain_ask trivial fun _ => rfl) fun outcomes => ?_
    exact plain_bind (plain_recordSweep outcomes) fun _ => trivial
  | restore =>
    refine Plain.responsible (plain_bind (plain_store _) fun ids => ?_)
    exact plain_bind (plain_restoreFrom ids none) fun _ => trivial
  | requiredCoins id role =>
    refine Plain.responsible (plain_bind (plain_lookup id) fun slot => ?_)
    refine plain_bind (plain_ask trivial fun _ => rfl) fun s => ?_
    exact plain_bind (plain_orFail _) fun _ => trivial
  | status id =>
    refine Plain.responsible (plain_bind (plain_lookup id) fun slot => ?_)
    exact plain_bind (plain_ask trivial fun _ => rfl) fun _ => trivial

end Node

end EscrowMix
