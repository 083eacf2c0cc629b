import EscrowMix.Proofs.Node.Obligations
import EscrowMix.Proofs.Session.Facts
import EscrowMix.Proofs.Session.Snapshot

/-!
What each command may ask for. A completion is for the transition that was claimed. What is
canonical stays so: a command that brings only addresses and terms in their canonical form calls on
sessions with such data only, as long as the wallet answers in kind. And a command that neither
enters nor leaves a session begins none and does not touch the directory.
-/

namespace EscrowMix.Node

variable {α β : Type} {slot : Slot} {t : Ticket} {c : Command} {fair : Prop} {on : Option Slot}

/-- The commands that enter and leave sessions. -/
def Command.places : Command → Bool
  | .beginSend .. | .onInvite .. | .cancel _ | .onCancel _ | .sweep | .restore => true
  | _ => false

/-- What the command brings is in canonical form: its addresses are as `Address.parse` gives them,
and its schedule is valid. -/
def Command.IsCanonical : Command → Prop
  | .beginSend destinations .. => ∀ a ∈ destinations, a.Canonical
  | .onInvite _ _ _ schedule .. => schedule.Valid ∧ schedule.IsCanonical
  | .setOwnKey _ address _ | .onAddressAndKey _ _ _ address _ => address.Canonical
  | _ => True

/-- The address that the wallet derives is in canonical form. -/
def Request.IsFair : (q : Request) → q.Answer → Prop
  | .wallet (.deriveMultisig ..), a => ∀ m, a = .ok m → Address.Canonical (Multisig.address m)
  | _, _ => True

/-- The calls that a node makes on its own account only. -/
def isOwnAccount : Session.Call → Bool
  | .forceReset _ | .flag => true
  | _ => false

/-- The command may make the call on this session. -/
structure Command.MayCall (fair : Prop) (c : Command) (on : Option Slot) (slot : Slot)
    (call : Session.Call) : Prop where
  place : ∀ slot', on = some slot' → slot = slot'
  account : isOwnAccount call = false
  matched : call.IsMatched
  canonical : fair → c.IsCanonical → call.IsCanonical
  begins : c.places = false → call.begins = false

/-- The command may ask for this, when its wallet is `fair`, and makes calls on this slot only. -/
def Command.May (fair : Prop) (c : Command) (on : Option Slot) : Request → Prop
  | .step (.call slot _ call) | .step (.announce slot call) => c.MayCall fair on slot call
  | .step (.enroll ..) | .step (.drop _) | .step (.sweep _) | .step (.abandon _)
  | .step (.save _) | .store _ => c.places = true
  | .step (.install ..) => c = .restore
  | _ => True

/-- An answer that a node and its collaborators can give. -/
def Request.Heard (fair : Prop) (q : Request) (a : q.Answer) : Prop :=
  (∃ n n', Answers n q a n') ∧ (fair → q.IsFair a)

/-- Whatever it hears, the program asks only for what the command may ask for. -/
def Within (fair : Prop) (c : Command) (on : Option Slot) : Program interface α → Prop
  | .done _ => True
  | .ask q next => c.May fair on q ∧ ∀ a, Request.Heard fair q a → Within fair c on (next a)

theorem Command.May.anywhere {q : Request} (h : c.May fair on q) :
    c.May fair none q := by
  cases q with
  | step q =>
    cases q with
    | call | announce => exact ⟨nofun, h.account, h.matched, h.canonical, h.begins⟩
    | _ => exact h
  | _ => exact h

theorem Within.anywhere {p : Program interface α} (h : Within fair c on p) :
    Within fair c none p := by
  induction p with
  | done a => trivial
  | ask q next ih => exact ⟨h.1.anywhere, fun a ha => ih a (h.2 a ha)⟩

/-! ### Programs in a row -/

theorem Within.bind {p : Program interface α} {f : α → Program interface β}
    (hp : Within fair c on p) (hf : ∀ a, Within fair c on (f a)) :
    Within fair c on (p.bind f) := by
  induction p with
  | done a => exact hf a
  | ask q next ih => exact ⟨hp.1, fun a ha => ih a (hp.2 a ha)⟩

open Running

variable {x : Running α} {f : α → Running β}

theorem within_bind (hx : Within fair c on x.run) (hf : ∀ a, Within fair c on (f a).run) :
    Within fair c on (x >>= f).run := by
  refine hx.bind fun r => ?_
  cases r with
  | error e => trivial
  | ok a => exact hf a

theorem within_check {p : Prop} [Decidable p] {e : Error} {f : Unit → Running β}
    (hf : Within fair c on (f ()).run) :
    Within fair c on (if p then (throw e : Running Unit) >>= f else f ()).run := by
  split
  · trivial
  · exact hf

theorem within_if {p : Prop} [Decidable p] {x y : Running α} (hx : Within fair c on x.run)
    (hy : Within fair c on y.run) : Within fair c on (if p then x else y).run := by
  split
  · exact hx
  · exact hy

theorem within_orFail {r : Except Error α} (h : ∀ a, r = .ok a → Within fair c on (f a).run) :
    Within fair c on (orFail r >>= f).run := by
  cases r with
  | error e => trivial
  | ok a => exact h a rfl

/-! ### Requests -/

theorem within_ask {q : Request} (hq : c.May fair on q) : Within fair c on (ask q).run :=
  ⟨hq, fun _ _ => trivial⟩

theorem within_step {q : Step} {h : q.Answer = Except Error α} (hq : c.May fair on (.step q)) :
    Within fair c on (step q h).run :=
  ⟨hq, fun _ _ => trivial⟩

theorem within_store {q : Store.Request} (hc : c.places = true) :
    Within fair c on (Running.store q).run :=
  ⟨hc, fun _ _ => trivial⟩

theorem within_storeAnyway {q : Store.Request} (hc : c.places = true) :
    Within fair c on (storeAnyway q).run :=
  within_bind (within_ask hc) fun _ => trivial

theorem within_call {call : Session.Call} (h : c.MayCall fair on slot call) :
    Within fair c on (Running.call slot call).run :=
  within_bind (within_ask (q := .step (.call slot none call)) h) fun _ => trivial

/-- The slot that was found is the one for all that follows. -/
theorem within_lookup {id : SessionId} {f : Slot → Running β}
    (hf : ∀ slot, Within fair c (some slot) (f slot).run) :
    Within fair c none (lookup id >>= f).run :=
  within_bind (within_step trivial) fun slot => (hf slot).anywhere

theorem within_askWallet (p : Wallet.Asking α) : Within fair c on (askWallet p).run := by
  obtain ⟨p, rfl⟩ : ∃ p', ExceptT.mk p' = p := ⟨p.run, rfl⟩
  induction p with
  | done r => trivial
  | ask q next ih => exact ⟨trivial, fun a _ => ih a⟩

theorem within_askLedger (p : Ledger.Asking α) : Within fair c on (askLedger p).run := by
  obtain ⟨p, rfl⟩ : ∃ p', ExceptT.mk p' = p := ⟨p.run, rfl⟩
  induction p with
  | done r => trivial
  | ask q next ih => exact ⟨trivial, fun a _ => ih a⟩

/-- The escrow that the wallet derives is as fair as the wallet. -/
theorem within_derivation {keys : RoleMap PublicKey} {threshold : UInt8}
    {f : Except Error Multisig → Running β}
    (hf : ∀ r, (fair → ∀ m, r = .ok m → m.address.Canonical) → Within fair c on (f r).run) :
    Within fair c on (askWallet (Wallet.ask (.deriveMultisig keys threshold)) >>= f).run := by
  refine ⟨trivial, fun a ha => hf _ fun hfair m hm => ha.2 hfair m ?_⟩
  rcases a with e | m' <;> cases hm
  rfl

theorem within_askReachable (counterparts : List (Role × Option PeerId)) :
    Within fair c on (askReachable counterparts).run := by
  induction counterparts with
  | nil => trivial
  | cons entry rest ih =>
    obtain ⟨role, _ | peer⟩ := entry
    · exact ih
    · exact within_bind (within_ask trivial) fun _ => within_bind ih fun _ => trivial

theorem within_evict (hc : c.places = true) (evicted : Option Eviction) :
    Within fair c on (evict evicted).run := by
  cases evicted with
  | none => trivial
  | some e =>
    refine within_bind (within_storeAnyway hc) fun _ => ?_
    exact within_bind (within_askReachable _) fun _ => trivial

theorem within_ensureConnected (role : Role) (peer : PeerId) :
    Within fair c on (ensureConnected role peer).run := by
  refine within_bind (within_ask trivial) fun isOpen => ?_
  cases isOpen <;> trivial

theorem within_discardIfUnused (hc : c.places = true) (slot : Slot) (id : SessionId) :
    Within fair c on (discardIfUnused slot id).run := by
  refine within_bind (within_ask trivial) fun s => ?_
  exact within_if (within_ask (q := .step (.drop id)) hc) trivial

theorem within_recordSweep (hc : c.places = true) (outcomes : List SweepOutcome) :
    Within fair c on (recordSweep outcomes).run := by
  induction outcomes with
  | nil => trivial
  | cons o rest ih =>
    cases o with
    | reset id => exact within_bind (within_storeAnyway hc) fun _ => ih
    | flagged id =>
      refine within_bind (within_ask trivial) fun found => ?_
      rcases found with e | slot
      · exact ih
      · exact within_bind (within_ask (q := .step (.save slot)) hc) fun _ => ih

theorem within_restoreFrom (ids : List SessionId) (restored : Option SessionId) :
    Within fair .restore on (restoreFrom ids restored).run := by
  induction ids generalizing restored with
  | nil => trivial
  | cons id ids ih =>
    refine within_bind (within_store rfl) fun found => ?_
    rcases found with _ | bytes
    · exact ih restored
    refine within_orFail fun s hs => ?_
    split
    · exact within_bind (within_store rfl) fun _ => ih restored
    · split
      · exact ih restored
      · refine within_bind (within_ask trivial) fun now => ?_
        refine within_bind (within_step rfl) fun out => ?_
        exact within_bind (within_evict rfl _) fun _ => ih _

/-! ### Claims -/

section

variable {call : Session.Call}

/-- What follows a claim knows which transition was claimed. -/
theorem within_claim {f : call.Answer → Running β} (h : c.MayCall fair on slot call)
    (hf : ∀ a t, call.claimed? (.ok a) = some t → call.Claims t.transition →
      Within fair c on (f a).run) (hc : isClaim call = true) :
    Within fair c on (Running.call slot call >>= f).run := by
  refine ⟨h, ?_⟩
  rintro answer ⟨⟨n, n', env, ha, -⟩, -⟩
  obtain rfl : answer = (n.directory.session slot).perform env.now call := ha
  generalize hs : (n.directory.session slot).perform env.now call = out
  obtain ⟨e | a, s'⟩ := out
  · trivial
  · have ht : ∃ t, call.claimed? (.ok a) = some t := by
      cases call <;> first | exact ⟨_, rfl⟩ | cases hc
    obtain ⟨t, ht⟩ := ht
    exact hf a t ht (Session.perform_claims hs ht)

/-- The same for a claim that every counterpart must be connected for. -/
theorem within_announcedClaim {f : (Role × Targets) × call.Answer → Running β}
    (h : c.MayCall fair on slot call)
    (hf : ∀ audience a t, call.claimed? (.ok a) = some t → call.Claims t.transition →
      Within fair c on (f (audience, a)).run) (hc : isClaim call = true) :
    Within fair c on (step (.announce slot call) rfl >>= f).run := by
  refine ⟨h, ?_⟩
  rintro answer ⟨⟨n, n', env, ha, -⟩, -⟩
  obtain rfl : answer = (n.announceOn env slot call).answer := ha
  rcases announceOn_cases n env slot call with ⟨e, ha, -⟩ | ⟨role, targets, a, s', -, hs, ha, -⟩
  · rw [ha]
    trivial
  · rw [ha]
    rcases a with e | a
    · trivial
    · have ht : ∃ t, call.claimed? (.ok a) = some t := by
        cases call <;> first | exact ⟨_, rfl⟩ | cases hc
      obtain ⟨t, ht⟩ := ht
      exact hf (role, targets) a t ht (Session.perform_claims hs ht)

end

/-! ### Commands on one session -/

theorem mayCall {call : Session.Call} (haccount : isOwnAccount call = false)
    (hm : call.IsMatched) (hcanonical : fair → c.IsCanonical → call.IsCanonical)
    (hbegins : call.begins = false) : c.MayCall fair (some slot) slot call :=
  ⟨fun _ h => Option.some.inj h, haccount, hm, hcanonical, fun _ => hbegins⟩

theorem within_giveBack (e : Error) :
    Within fair c (some slot) (giveBack slot t e : Running α).run :=
  within_bind (within_call (mayCall rfl trivial (fun _ _ => trivial) rfl)) fun _ => trivial

theorem within_broadcast (slot : Slot) (final : Option Bytes) :
    Within fair c (some slot) (broadcast slot final).run := by
  refine within_claim (mayCall rfl trivial (fun _ _ => trivial) rfl)
    (fun answer t ht hclaims => ?_) rfl
  cases ht
  refine within_bind (within_askWallet _) fun r => ?_
  rcases r with e | _
  · exact within_giveBack e
  · exact within_bind (within_call (mayCall rfl hclaims (fun _ _ => trivial) rfl)) fun _ => trivial

theorem single?_mayCall {id : SessionId} {call : Session.Call} (h : c.single? = some (id, call)) :
    c.MayCall fair (some slot) slot call := by
  cases c <;> cases h
  case onAddressAndKey => exact mayCall rfl trivial (fun _ h => h) rfl
  all_goals exact mayCall rfl trivial (fun _ _ => trivial) rfl

/-- A command that neither enters nor leaves a session finds the active one, and then keeps to it. -/
theorem program_lookup (fair : Prop) (config : Config) (hc : c.places = false) :
    ∃ (id : SessionId) (f : Slot → Running Reply), c.program config = (lookup id >>= f).run ∧
      ∀ slot, Within fair c (some slot) (f slot).run := by
  cases c with
  | beginSend | onInvite | cancel | onCancel | sweep | restore => cases hc
  | deriveMultisig id =>
    refine ⟨id, _, rfl, fun slot => ?_⟩
    refine within_claim (mayCall rfl trivial (fun _ _ => trivial) rfl)
      (fun answer t ht hclaims => ?_) rfl
    cases ht
    refine within_derivation fun r hr => ?_
    rcases r with e | escrow
    · exact within_giveBack e
    · exact within_bind (within_call (mayCall rfl hclaims (fun hfair _ => hr hfair escrow rfl) rfl))
        fun _ => trivial
  | verifyDeposits id =>
    refine ⟨id, _, rfl, fun slot => ?_⟩
    refine within_claim (mayCall rfl trivial (fun _ _ => trivial) rfl)
      (fun answer t ht hclaims => ?_) rfl
    cases ht
    refine within_bind (within_askLedger _) fun r => ?_
    rcases r with e | verdict
    · exact within_giveBack e
    · exact within_bind (within_call (mayCall rfl hclaims (fun _ _ => trivial) rfl))
        fun _ => trivial
  | contributeSignature id =>
    refine ⟨id, _, rfl, fun slot => ?_⟩
    refine within_announcedClaim (mayCall rfl trivial (fun _ _ => trivial) rfl)
      (fun audience answer t ht hclaims => ?_) rfl
    cases ht
    refine within_bind (within_askWallet _) fun r => ?_
    rcases r with e | ⟨candidate, count⟩
    · exact within_giveBack e
    · exact within_bind (within_call (mayCall rfl hclaims (fun _ _ => trivial) rfl))
        fun _ => trivial
  | commit id =>
    refine ⟨id, _, rfl, fun slot => ?_⟩
    refine within_bind (within_broadcast slot none) fun tx => ?_
    exact within_bind (within_ask trivial) fun _ => trivial
  | onCommit id final =>
    refine ⟨id, _, rfl, fun slot => ?_⟩
    refine within_bind (within_ask (q := .step (.view slot)) trivial) fun s => ?_
    split
    · split <;> trivial
    · exact within_bind (within_broadcast slot (some final)) fun _ => trivial
  | attachPeer | onAddressAndKey | onDepositNotice | onSignatureRound | markReclaimable =>
    refine ⟨_, _, rfl, fun slot => ?_⟩
    exact within_bind (within_call (single?_mayCall rfl)) fun _ => trivial
  | setOwnKey id =>
    refine ⟨id, _, rfl, fun slot => ?_⟩
    exact within_bind (within_step (mayCall rfl trivial (fun _ h => h) rfl)) fun _ => trivial
  | recordOwnDeposit id =>
    refine ⟨id, _, rfl, fun slot => ?_⟩
    exact within_bind (within_step (mayCall rfl trivial (fun _ _ => trivial) rfl)) fun _ => trivial
  | requiredCoins id role =>
    refine ⟨id, _, rfl, fun slot => ?_⟩
    refine within_bind (within_ask (q := .step (.view slot)) trivial) fun s => ?_
    exact within_orFail fun _ _ => trivial
  | status id =>
    refine ⟨id, _, rfl, fun slot => ?_⟩
    exact within_bind (within_ask (q := .step (.view slot)) trivial) fun _ => trivial

/-! ### Commands that enter or leave sessions -/

theorem uniform_canonical {destinations : List Address} {each : Amount} {schedule : Schedule}
    (h : Schedule.uniform destinations each = .ok schedule)
    (hc : ∀ a ∈ destinations, a.Canonical) : schedule.Valid ∧ schedule.IsCanonical := by
  obtain ⟨hpayouts, hv⟩ := Schedule.ofPayouts_eq_ok.1 h
  refine ⟨hv, fun p hp => ?_⟩
  rw [← hpayouts] at hp
  obtain ⟨a, ha, rfl⟩ := List.mem_map.1 hp
  exact hc a ha

theorem within_beginSend (destinations : List Address) (each : Amount)
    (constraints : CoinConstraints) (mixer guarantor : PeerId) :
    Within fair (.beginSend destinations each constraints mixer guarantor) none
      (beginSend destinations each constraints mixer guarantor).run := by
  refine within_orFail fun schedule hschedule => ?_
  refine within_check ?_
  refine within_bind (within_ensureConnected _ _) fun _ => ?_
  refine within_bind (within_ensureConnected _ _) fun _ => ?_
  refine within_bind (within_ask trivial) fun id => ?_
  refine within_bind (within_ask trivial) fun now => ?_
  refine within_bind (within_step rfl) fun enrolled => ?_
  refine within_bind (within_evict rfl _) fun cancellations => ?_
  have hcanonical := fun h => uniform_canonical (mapError_eq_ok.1 hschedule) h
  refine within_bind (within_ask ⟨nofun, rfl, trivial, fun _ h => hcanonical h, nofun⟩) fun out => ?_
  obtain ⟨e | _, s⟩ := out
  · exact within_bind (within_discardIfUnused rfl _ _) fun _ => trivial
  · trivial

theorem within_onInvite (from_ : PeerId) (id : SessionId) (role : Role) (schedule : Schedule)
    (fees : FeePolicy) (constraints : CoinConstraints) (config : Config) :
    Within fair (.onInvite from_ id role schedule fees constraints) none
      (onInvite from_ id role schedule fees constraints config).run := by
  refine within_bind (within_ensureConnected _ _) fun _ => ?_
  refine within_check ?_
  refine within_check ?_
  refine within_orFail fun _ _ => ?_
  refine within_bind (within_ask trivial) fun now => ?_
  refine within_bind (within_step rfl) fun enrolled => ?_
  refine within_bind (within_evict rfl _) fun cancellations => ?_
  refine within_bind (within_ask ⟨nofun, rfl, trivial, fun _ h => h, nofun⟩) fun out => ?_
  obtain ⟨e | _, s⟩ := out
  · exact within_bind (within_discardIfUnused rfl _ _) fun _ => trivial
  · exact within_bind (within_ask (q := .step (.save enrolled.1)) rfl) fun _ => trivial

/-- Every command keeps to what it may ask for. -/
theorem program_within (fair : Prop) (config : Config) (c : Command) :
    Within fair c none (c.program config) := by
  by_cases hc : c.places = false
  · obtain ⟨id, f, hprogram, hf⟩ := program_lookup fair config hc
    rw [hprogram]
    exact within_lookup hf
  cases c with
  | beginSend => exact within_beginSend ..
  | onInvite => exact within_onInvite ..
  | cancel id =>
    refine within_bind (within_step trivial) fun slot => ?_
    refine within_bind (within_step rfl) fun targets => ?_
    exact within_bind (within_ask (q := .step (.drop id)) rfl) fun _ => trivial
  | onCancel id =>
    refine within_lookup fun slot => ?_
    refine within_bind (within_call (mayCall rfl trivial (fun _ _ => trivial) rfl)) fun _ => ?_
    exact within_bind (within_ask (q := .step (.drop id)) rfl) fun _ => trivial
  | sweep =>
    refine within_bind (within_ask trivial) fun now => ?_
    refine within_bind (within_ask (q := .step (.sweep now)) rfl) fun outcomes => ?_
    exact within_bind (within_recordSweep rfl outcomes) fun _ => trivial
  | restore =>
    refine within_bind (within_store rfl) fun ids => ?_
    exact within_bind (within_restoreFrom ids none) fun _ => trivial
  | _ => exact absurd rfl hc

end EscrowMix.Node
