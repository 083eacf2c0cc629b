import EscrowMix.Proofs.Session.InPlace
import EscrowMix.Proofs.Session.WriteOnce

/-!
The steps of the funding: three keys, the escrow, three deposits. The session depends on the set of
the steps that it accepted, not on their order:

    accepted                                  status
    not the own key                           Reserved
    the own key, not all keys                 InitData
    all keys, not the escrow                  PubKey
    the escrow, not all deposits              MultisigAddr
    the escrow and all deposits               DepositsObserved

From such a session each step is either refused, which changes nothing, or leads to the session of
one more step.
-/

namespace EscrowMix.Session

namespace Funding

/-- What is brought to the funding of a session. -/
structure Parts where
  address : Role → Address
  key : Role → PublicKey
  /-- The connection that a key comes from. -/
  peer : Role → Option PeerId
  escrow : Multisig
  deposit : Role → Deposit

/-- No output is the deposit of two parties. -/
def Parts.Distinct (p : Parts) : Prop :=
  ∀ r q, (p.deposit r).outPoint = (p.deposit q).outPoint → r = q

/-- The steps of the funding. -/
inductive Step where
  | key (role : Role)
  | escrow
  | deposit (role : Role)
deriving DecidableEq

def Step.all : List Step := Role.all.map .key ++ .escrow :: Role.all.map .deposit

theorem Step.mem_all (σ : Step) : σ ∈ Step.all := by
  cases σ with
  | key role => cases role <;> decide
  | escrow => decide
  | deposit role => cases role <;> decide

/-- What happens in the funding. -/
inductive Move where
  | key (role : Role) (now : UInt64)
  /-- The escrow is claimed and later completed; calls come in between. -/
  | escrow (now : UInt64) (meanwhile : Script) (later : UInt64)
  | deposit (role : Role) (now : UInt64)
  /-- A call that is no step. -/
  | other (now : UInt64) (c : Call)

/-- Performs a call: whether it succeeds, and the session then. -/
def tried (s : Session) (now : UInt64) (c : Call) : Bool × Session :=
  ((s.perform now c).1.isOk, (s.perform now c).2)

/-- The call is refused. -/
def isRefusal {α : Type} : Except Error α → Bool
  | .error e => !e.isFinding
  | .ok _ => false

/-- All calls are refused. -/
def refuses : Session → Script → Bool
  | _, [] => true
  | s, (now, c) :: cs => isRefusal (s.perform now c).1 && refuses (s.perform now c).2 cs

section

variable (p : Parts) (own : Role)

def keyCall (role : Role) : Call :=
  if role = own then .setOwnKey (p.address role) (p.key role)
  else .learnKey role (p.address role) (p.key role) (p.peer role)

def depositCall (role : Role) : Call :=
  if role = own then .recordOwnDeposit (p.deposit role) else .learnDeposit role (p.deposit role)

/-- Carries a move out: whether the session accepts it, and the session then. -/
def Move.take (s : Session) : Move → Bool × Session
  | .key role now => tried s now (keyCall p own role)
  | .escrow now meanwhile later =>
    match s.perform now .claimMultisig with
    | (.ok (ticket, _), s) => tried (s.after meanwhile) later (.completeMultisig ticket p.escrow)
    | (.error _, s) => (false, s)
  | .deposit role now => tried s now (depositCall p own role)
  | .other now c => tried s now c

/-- A peer announces once more what was accepted. -/
def repeats (done : List Step) : Call → Bool
  | .learnKey role address key _ =>
    role ≠ own && .key role ∈ done && address = p.address role && key = p.key role
  | _ => false

/-! ### The session that a set of steps leads to -/

def hasKeys (done : List Step) : Bool := Role.all.all fun role => .key role ∈ done

def hasDeposits (done : List Step) : Bool := Role.all.all fun role => .deposit role ∈ done

/-- What a status catches up to when the steps are done. -/
def caught (done : List Step) : Status → Status
  | .initData => if hasKeys done then .pubKey else .initData
  | .multisigAddr => if hasDeposits done then .depositsObserved else .multisigAddr
  | status => status

/-- The status that the own key and the escrow lead to. -/
def base (done : List Step) : Status :=
  if .escrow ∈ done then .multisigAddr else if .key own ∈ done then .initData else .reserved

/-- The status when the steps are done. -/
def stage (done : List Step) : Status := caught done (base own done)

/-- What is known of a party when the steps are done. -/
def partyOf (s : Session) (done : List Step) (role : Role) : Party :=
  if .key role ∈ done then
    ⟨some (p.address role), some (p.key role),
      if role = own then s.parties.peer role else (s.parties.peer role).or (p.peer role)⟩
  else s.parties.parties.get role

/-- The line that a step leaves. -/
def event : Step → String
  | .key role =>
    if role = own then ownKeyEvent (p.address role) (p.key role)
    else learnedKeyEvent role (p.address role) (p.key role)
  | .escrow => escrowEvent p.escrow
  | .deposit role =>
    if role = own then ownDepositEvent (p.deposit role)
    else learnedDepositEvent role (p.deposit role)

/-- The statuses of the funding. -/
def ladder : List Status := [.reserved, .initData, .pubKey, .multisigAddr, .depositsObserved]

/-- The lines that the changes of status leave, up to a status. -/
def climb (status : Status) : List String :=
  (ladder.zipWith advanceEvent ladder.tail).take (status.rank - 1)

end

variable {p : Parts} {own role : Role} {done : List Step} {s t u : Session} {now : UInt64}

theorem hasKeys_iff : hasKeys done = true ↔ ∀ role, .key role ∈ done := by
  simp only [hasKeys, List.all_eq_true, decide_eq_true_eq]
  exact ⟨fun h role => h role (Role.mem_all role), fun h role _ => h role⟩

theorem hasDeposits_iff : hasDeposits done = true ↔ ∀ role, .deposit role ∈ done := by
  simp only [hasDeposits, List.all_eq_true, decide_eq_true_eq]
  exact ⟨fun h role => h role (Role.mem_all role), fun h role _ => h role⟩

/-! ### Calls that pass every check -/

section

variable {address : Address} {key : PublicKey} {peer : Option PeerId} {deposit : Deposit}
  {record : Escrow.Record} {ticket : Ticket} {escrow : Multisig}

theorem setOwnKey_news (hp : t.pending = none) (ho : t.role = some own)
    (hst : t.status ∈ keyStatuses) (ha : t.parties.address own = none)
    (hk : t.parties.key own = none) : t.setOwnKey address key now =
      .ok (true, ((t.keyed own address key now).promoted now).touched now) := by
  have hidle : t.ensureIdle = .ok () := ensureIdle_eq_ok.2 hp
  have hown : t.localRole = .ok own := localRole_eq_ok.2 ho
  have hstatus : t.ensureStatus keyStatuses .setOwnKey = .ok () := ensureStatus_eq_ok.2 hst
  have hreg : t.parties.register own address key =
      .ok (true, t.parties.registered own address key) :=
    Registry.register_eq_ok.2 (.inl ⟨rfl, ha, hk, rfl⟩)
  rw [setOwnKey, bind_of_ok hidle, bind_of_ok hown, bind_of_ok hstatus,
    bind_of_ok (mapError_eq_ok.2 hreg)]
  rfl

theorem learnKey_news (hp : t.pending = none) (ho : t.role = some own) (hr : role ≠ own)
    (hst : t.status ∈ keyStatuses) (ha : t.parties.address role = none)
    (hk : t.parties.key role = none) : t.learnKey role address key peer now =
      .ok (true, (({ t.logged now (learnedKeyEvent role address key) with
        parties := introduced (t.parties.registered role address key) role
          peer }).promoted now).touched now) := by
  have hidle : t.ensureIdle = .ok () := ensureIdle_eq_ok.2 hp
  have hpeer : t.ensurePeerRole role = .ok () := ensurePeerRole_eq_ok.2 ⟨own, ho, hr⟩
  have hstatus : t.ensureStatus keyStatuses .learnKey = .ok () := ensureStatus_eq_ok.2 hst
  have hreg : t.parties.register role address key =
      .ok (true, t.parties.registered role address key) :=
    Registry.register_eq_ok.2 (.inl ⟨rfl, ha, hk, rfl⟩)
  have hbegun : t.status ≠ .notBegun := fun e => by
    rw [e] at hst
    exact absurd hst (by decide)
  rw [learnKey, bind_of_ok hidle, bind_of_ok hpeer, if_neg hbegun,
    bind_of_ok (mapError_eq_ok.2 hreg)]
  dsimp only
  rw [if_pos rfl, bind_of_ok hstatus]
  rfl

theorem completeMultisig_of (hp : t.pending = some ticket.transition)
    (he : t.epoch = ticket.epoch) : t.completeMultisig ticket escrow now =
      .ok ((({ t.idle.logged now (escrowEvent escrow) with escrow := some escrow }.advanced
        .multisigAddr now).promoted now).touched now) := by
  have hredeem : t.redeem ticket = .ok t.idle := redeem_eq_ok.2 ⟨hp, he, rfl⟩
  rw [completeMultisig, bind_of_ok hredeem]
  rfl

theorem recordOwnDeposit_of (hp : t.pending = none) (ho : t.role = some own)
    (hst : t.status = .multisigAddr) (hrec : t.record.recordDeposit own deposit = .ok record) :
    t.recordOwnDeposit deposit now = .ok (t.deposited record (ownDepositEvent deposit) now) := by
  have hidle : t.ensureIdle = .ok () := ensureIdle_eq_ok.2 hp
  have hown : t.localRole = .ok own := localRole_eq_ok.2 ho
  have hstatus : t.ensureStatus [.multisigAddr] .recordOwnDeposit = .ok () :=
    ensureStatus_eq_ok.2 (List.mem_singleton.2 hst)
  rw [recordOwnDeposit, bind_of_ok hidle, bind_of_ok hown, bind_of_ok (mapError_eq_ok.2 hrec),
    bind_of_ok hstatus]
  rfl

theorem learnDeposit_of (hp : t.pending = none) (ho : t.role = some own) (hr : role ≠ own)
    (hst : t.status ∈ depositStatuses) (hrec : t.record.recordDeposit role deposit = .ok record) :
    t.learnDeposit role deposit now =
      .ok (t.deposited record (learnedDepositEvent role deposit) now) := by
  have hidle : t.ensureIdle = .ok () := ensureIdle_eq_ok.2 hp
  have hpeer : t.ensurePeerRole role = .ok () := ensurePeerRole_eq_ok.2 ⟨own, ho, hr⟩
  have hstatus : t.ensureStatus depositStatuses .learnDeposit = .ok () := ensureStatus_eq_ok.2 hst
  rw [learnDeposit, bind_of_ok hidle, bind_of_ok hpeer, bind_of_ok (mapError_eq_ok.2 hrec)]
  exact bind_of_ok hstatus _

end

/-! ### The beginning -/

/-- A session that has just begun. -/
structure Begun (own : Role) (s : Session) : Prop where
  status : s.status = .reserved
  role : s.role = some own
  pending : s.pending = none
  address : ∀ r, s.parties.address r = none
  key : ∀ r, s.parties.key r = none
  record : s.record = .empty
  escrow : s.escrow = none

/-- A begin call that succeeds leaves a session that has just begun. -/
theorem begun_of_begins {s₀ : Session} (h : Reachable s₀) {c : Call} (hc : c.begins = true)
    {a : c.Answer} (hs : s₀.perform now c = (.ok a, s)) : ∃ own, Begun own s := by
  have hst := notBegun_of_begins hc hs
  obtain ⟨-, -, hparties, hrecord, -⟩ := h.consistent.blank hst
  have hescrow : s₀.escrow = none := h.consistent.not_escrowed (by rw [hst]; decide)
  have hrole : s₀.parties.role = none := by rw [hparties, Registry.empty_role]
  have haddress (r : Role) : s₀.parties.address r = none := by rw [hparties, Registry.empty_address]
  have hkey (r : Role) : s₀.parties.key r = none := by rw [hparties, Registry.empty_key]
  cases perform_outcome hs with
  | begunAsSender hp _ _ hset =>
    obtain rfl := (Registry.setRole_eq_ok hrole).1 hset
    refine ⟨.sender, rfl, rfl, hp, fun r => ?_, fun r => ?_, hrecord, hescrow⟩
    · exact (Registry.setPeer_address ..).trans <| (Registry.setPeer_address ..).trans (haddress r)
    · exact (Registry.setPeer_key ..).trans <| (Registry.setPeer_key ..).trans (hkey r)
  | begunInvited hp _ _ _ hset =>
    obtain rfl := (Registry.setRole_eq_ok hrole).1 hset
    refine ⟨_, rfl, rfl, hp, fun r => ?_, fun r => ?_, hrecord, hescrow⟩
    · exact (Registry.setPeer_address ..).trans (haddress r)
    · exact (Registry.setPeer_key ..).trans (hkey r)
  | _ => cases hc

/-! ### What a session holds -/

/-- A session holds what the steps brought, and nothing else. -/
structure Holds (p : Parts) (own : Role) (s : Session) (done : List Step) (t : Session) : Prop where
  kept : { t with
    status := s.status, parties := s.parties, record := s.record, escrow := s.escrow
    epoch := s.epoch, log := s.log, lastActivity := s.lastActivity } = s
  role : t.role = s.role
  record : { t.record with deposits := s.record.deposits } = s.record
  party : ∀ r, t.parties.parties.get r = partyOf p own s done r
  deposit : ∀ r, t.record.deposit r = if .deposit r ∈ done then some (p.deposit r) else none
  escrow : t.escrow = if .escrow ∈ done then some p.escrow else none
  events : (t.log.map (·.event)).Perm
    (s.log.map (·.event) ++ done.map (event p own) ++ climb t.status)

theorem Begun.holds (hs : Begun own s) : Holds p own s [] s where
  kept := rfl
  role := rfl
  record := rfl
  party r := (if_neg (List.not_mem_nil)).symm
  deposit r := by
    rw [hs.record, Escrow.Record.empty_deposit]
    rfl
  escrow := by
    rw [hs.escrow]
    rfl
  events := by
    rw [hs.status]
    simp [climb, Status.rank]

section

variable (h : Holds p own s done t)
include h

theorem Holds.pending (hs : Begun own s) : t.pending = none :=
  (congrArg Session.pending h.kept).trans hs.pending

theorem Holds.role_eq (hs : Begun own s) : t.role = some own := h.role.trans hs.role

theorem Holds.address (hs : Begun own s) (r : Role) :
    t.parties.address r = if .key r ∈ done then some (p.address r) else none := by
  rw [Registry.address, h.party, partyOf]
  split
  · rfl
  · exact hs.address r

theorem Holds.key (hs : Begun own s) (r : Role) :
    t.parties.key r = if .key r ∈ done then some (p.key r) else none := by
  rw [Registry.key, h.party, partyOf]
  split
  · rfl
  · exact hs.key r

theorem Holds.hasAllKeys (hs : Begun own s) : t.parties.hasAllKeys = hasKeys done := by
  rw [Bool.eq_iff_iff, Registry.hasAllKeys_iff, hasKeys_iff]
  refine forall_congr' fun r => ?_
  rw [h.key hs]
  split <;> simp_all

theorem Holds.hasAllDeposits : t.record.hasAllDeposits = hasDeposits done := by
  rw [Bool.eq_iff_iff, Escrow.Record.hasAllDeposits_iff, hasDeposits_iff]
  refine forall_congr' fun r => ?_
  rw [h.deposit]
  split <;> simp_all

/-- A change of status that leaves the line which is due. -/
theorem Holds.advanced {status : Status}
    (hclimb : climb status = climb t.status ++ [advanceEvent t.status status]) (now : UInt64) :
    Holds p own s done (t.advanced status now) where
  kept := h.kept
  role := h.role
  record := h.record
  party := h.party
  deposit := h.deposit
  escrow := h.escrow
  events := by
    have hlog : (t.advanced status now).log.map (·.event) =
        t.log.map (·.event) ++ [advanceEvent t.status status] := List.map_append
    have hst : (t.advanced status now).status = status := rfl
    rw [hlog, hst, hclimb, ← List.append_assoc]
    exact h.events.append_right _

end

theorem Holds.peer (h : Holds p own s done t) (hnew : .key role ∉ done) :
    t.parties.peer role = s.parties.peer role := by
  rw [Registry.peer, h.party, partyOf, if_neg hnew]
  rfl

/-- A deposit that is missing is recorded, since the outputs are distinct. -/
theorem Holds.recordDeposit (h : Holds p own s done t) (hp : p.Distinct)
    (hnew : .deposit role ∉ done) : t.record.recordDeposit role (p.deposit role) =
      .ok (t.record.deposited role (p.deposit role)) := by
  refine Escrow.Record.recordDeposit_eq_ok.2 ⟨?_, fun q d hd heq => ?_, rfl⟩
  · rw [h.deposit, if_neg hnew]
  · rw [h.deposit] at hd
    obtain ⟨hq, hd⟩ := Option.ite_none_right_eq_some.1 hd
    obtain rfl := Option.some.inj hd
    exact hnew (hp q role heq ▸ hq)

/-- Catching up leaves the lines which are due. -/
theorem climb_promoted (t : Session) (now : UInt64) : climb (t.caughtUp?.getD t.status) =
    climb t.status ++ (t.caughtUpLines now).map (·.event) := by
  unfold caughtUpLines caughtUp?
  generalize t.status = status
  cases status with
  | initData => cases t.parties.hasAllKeys <;> rfl
  | multisigAddr => cases t.record.hasAllDeposits <;> rfl
  | _ => simp

/-- With the keys and the deposits of the steps, the status catches up as the steps do. -/
theorem caught_eq (hk : t.parties.hasAllKeys = hasKeys done)
    (hd : t.record.hasAllDeposits = hasDeposits done) :
    t.caughtUp?.getD t.status = caught done t.status := by
  unfold caughtUp? caught
  rw [hk, hd]
  generalize t.status = status
  cases status with
  | initData => cases hasKeys done <;> rfl
  | multisigAddr => cases hasDeposits done <;> rfl
  | _ => rfl

/-- Where a session stands after steps that came in a fitting order. -/
structure Reached (p : Parts) (own : Role) (s : Session) (done : List Step) (t : Session) : Prop
    extends Holds p own s done t where
  reachable : Reachable t
  status : t.status = stage own done
  epoch : t.epoch = s.epoch + done.length
  keysFirst : .escrow ∈ done → ∀ r, .key r ∈ done
  escrowFirst : .deposit own ∈ done → .escrow ∈ done

/-- A step ends with the status catching up, and a new epoch. -/
theorem Holds.committed (hs : Begun own s) (h : Holds p own s done u)
    (hr : Reachable ((u.promoted now).touched now)) (hst : caught done u.status = stage own done)
    (he : u.epoch + 1 = s.epoch + done.length) (hk : .escrow ∈ done → ∀ r, .key r ∈ done)
    (hd : .deposit own ∈ done → .escrow ∈ done) :
    Reached p own s done ((u.promoted now).touched now) := by
  have hstatus : u.caughtUp?.getD u.status = stage own done :=
    (caught_eq (h.hasAllKeys hs) h.hasAllDeposits).trans hst
  have hclimb := climb_promoted u now
  rw [promoted_eq] at hr ⊢
  refine ⟨⟨h.kept, h.role, h.record, h.party, h.deposit, h.escrow, ?_⟩, hr, hstatus, he, hk, hd⟩
  have hlog : (u.log ++ u.caughtUpLines now).map (·.event) =
      u.log.map (·.event) ++ (u.caughtUpLines now).map (·.event) := List.map_append
  show ((u.log ++ u.caughtUpLines now).map (·.event)).Perm
    (s.log.map (·.event) ++ done.map (event p own) ++ climb (u.caughtUp?.getD u.status))
  rw [hlog, hclimb, ← List.append_assoc]
  exact h.events.append_right _

theorem introduced_get_self (g : Registry) (role : Role) (address : Address) (key : PublicKey)
    (peer : Option PeerId) :
    (introduced (g.registered role address key) role peer).parties.get role =
      ⟨some address, some key, (g.peer role).or peer⟩ := by
  have hpeer : (g.registered role address key).peer role = g.peer role := by
    simp [Registry.registered, Registry.peer]
  unfold introduced
  rw [hpeer]
  cases hg : g.peer role <;> cases peer <;>
    simp_all [Registry.registered, Registry.setPeer, Registry.peer]

theorem introduced_get_of_ne (g : Registry) {role r : Role} (hr : r ≠ role) {address : Address}
    {key : PublicKey} {peer : Option PeerId} :
    (introduced (g.registered role address key) role peer).parties.get r = g.parties.get r := by
  have hreg : (g.registered role address key).parties.get r = g.parties.get r :=
    RoleMap.get_set_of_ne _ _ hr
  unfold introduced
  split
  · exact (RoleMap.get_set_of_ne _ _ hr).trans hreg
  · exact hreg

/-! ### The status of a set of steps -/

theorem caught_caught {more : List Step} (h : done ⊆ more) (status : Status) :
    caught more (caught done status) = caught more status := by
  have hkeys : hasKeys done = true → hasKeys more = true := fun hk =>
    hasKeys_iff.2 fun r => h (hasKeys_iff.1 hk r)
  have hdeposits : hasDeposits done = true → hasDeposits more = true := fun hd =>
    hasDeposits_iff.2 fun r => h (hasDeposits_iff.1 hd r)
  cases status with
  | initData =>
    unfold caught
    cases hk : hasKeys done with
    | false => rfl
    | true => simp [hkeys hk]
  | multisigAddr =>
    unfold caught
    cases hd : hasDeposits done with
    | false => rfl
    | true => simp [hdeposits hd]
  | _ => rfl

/-- A step of a peer changes the status only as far as it can catch up. -/
theorem stage_snoc {σ : Step} (hkey : σ ≠ .key own) (hescrow : σ ≠ .escrow) :
    stage own (done ++ [σ]) = caught (done ++ [σ]) (stage own done) := by
  have hbase : base own (done ++ [σ]) = base own done := by
    simp [base, hkey.symm, hescrow.symm]
  rw [stage, stage, hbase, caught_caught (List.subset_append_left ..)]

/-- The statuses, each with the steps that it takes. -/
theorem stage_cases (own : Role) (done : List Step) :
    (.escrow ∉ done ∧ .key own ∉ done ∧ stage own done = .reserved) ∨
    (.escrow ∉ done ∧ .key own ∈ done ∧ stage own done = .initData) ∨
    (.escrow ∉ done ∧ hasKeys done ∧ stage own done = .pubKey) ∨
    (.escrow ∈ done ∧ stage own done = .multisigAddr) ∨
    (.escrow ∈ done ∧ hasDeposits done ∧ stage own done = .depositsObserved) := by
  unfold stage base
  by_cases he : .escrow ∈ done
  · rw [if_pos he]
    cases hd : hasDeposits done <;> simp [caught, hd, he]
  · rw [if_neg he]
    by_cases ho : .key own ∈ done
    · rw [if_pos ho]
      cases hk : hasKeys done <;> simp [caught, hk, he, ho]
    · rw [if_neg ho]
      simp [caught, he, ho]

/-- Until the escrow is there, keys may come in. -/
theorem stage_mem_keyStatuses (he : .escrow ∉ done) : stage own done ∈ keyStatuses := by
  rcases stage_cases own done with ⟨-, -, e⟩ | ⟨-, -, e⟩ | ⟨-, -, e⟩ | ⟨he', -⟩ | ⟨he', -⟩
  · simp [e, keyStatuses]
  · simp [e, keyStatuses]
  · simp [e, keyStatuses]
  · exact absurd he' he
  · exact absurd he' he

/-- Until all deposits are there, the peers' may come in. -/
theorem stage_mem_depositStatuses (hd : ¬hasDeposits done) : stage own done ∈ depositStatuses := by
  rcases stage_cases own done with ⟨-, -, e⟩ | ⟨-, -, e⟩ | ⟨-, -, e⟩ | ⟨-, e⟩ | ⟨-, hd', -⟩
  · simp [e, depositStatuses]
  · simp [e, depositStatuses]
  · simp [e, depositStatuses]
  · simp [e, depositStatuses]
  · exact absurd hd' hd

theorem hasKeys_of_stage (h : stage own done = .pubKey) : hasKeys done = true := by
  rcases stage_cases own done with
    ⟨-, -, e⟩ | ⟨-, -, e⟩ | ⟨-, hk, e⟩ | ⟨-, e⟩ | ⟨-, -, e⟩ <;> cases e.symm.trans h
  exact hk

theorem escrow_of_stage (h : stage own done = .multisigAddr) : .escrow ∈ done := by
  rcases stage_cases own done with
    ⟨-, -, e⟩ | ⟨-, -, e⟩ | ⟨-, -, e⟩ | ⟨he, e⟩ | ⟨-, -, e⟩ <;> cases e.symm.trans h
  exact he

theorem stage_reserved (he : .escrow ∉ done) (ho : .key own ∉ done) :
    stage own done = .reserved := by
  simp [stage, base, caught, he, ho]

theorem stage_pubKey (he : .escrow ∉ done) (hk : hasKeys done = true) :
    stage own done = .pubKey := by
  simp [stage, base, caught, he, hk, hasKeys_iff.1 hk]

theorem stage_multisigAddr (he : .escrow ∈ done) (hd : ¬hasDeposits done) :
    stage own done = .multisigAddr := by
  simp [stage, base, caught, he, hd]

theorem stage_depositsObserved (he : .escrow ∈ done) (hd : hasDeposits done = true) :
    stage own done = .depositsObserved := by
  simp [stage, base, caught, he, hd]

/-! ### Steps -/

variable {c : Call}

theorem tried_ok {a : c.Answer} (h : t.perform now c = (.ok a, u)) : tried t now c = (true, u) := by
  rw [tried, h]
  rfl

theorem tried_error {e : Error} (h : t.perform now c = (.error e, u)) :
    tried t now c = (false, u) := by
  rw [tried, h]
  rfl

/-- A call that is refused leaves the session as it was. -/
theorem perform_isRefusal (h : Reachable t) (hc : isRefusal (t.perform now c).1 = true) :
    (t.perform now c).2 = t := by
  cases he : (t.perform now c).1 with
  | ok a =>
    rw [he] at hc
    cases hc
  | error e =>
    rw [he] at hc
    exact h.consistent.unchanged_of_refusal he (Bool.not_eq_true' e.isFinding ▸ hc)

/-- Calls that are refused lead nowhere. -/
theorem after_refuses (h : Reachable t) {cs : Script} (hcs : refuses t cs) : t.after cs = t := by
  induction cs with
  | nil => rfl
  | cons e cs ih =>
    obtain ⟨now, c⟩ := e
    obtain ⟨hc, hrest⟩ := Bool.and_eq_true_iff.1 hcs
    have hkept := perform_isRefusal h hc
    rw [hkept] at hrest
    have hafter : t.after ((now, c) :: cs) = (t.perform now c).2.after cs := rfl
    rw [hafter, hkept]
    exact ih hrest

/-- One more line, of one more step. -/
theorem perm_snoc {events begun steps climbed : List String}
    (h : events.Perm (begun ++ steps ++ climbed)) (line : String) :
    (events ++ [line]).Perm (begun ++ (steps ++ [line]) ++ climbed) := by
  refine (h.append_right [line]).trans ?_
  have hcomm : (climbed ++ [line]).Perm ([line] ++ climbed) := List.perm_append_comm
  have hswap := hcomm.append_left (begun ++ steps)
  simpa only [List.append_assoc] using hswap

theorem Holds.events_snoc (h : Holds p own s done t) (now : UInt64) (σ : Step) :
    ((t.logged now (event p own σ)).log.map (·.event)).Perm
      (s.log.map (·.event) ++ (done ++ [σ]).map (event p own) ++ climb t.status) := by
  have hlog : (t.logged now (event p own σ)).log.map (·.event) =
      t.log.map (·.event) ++ [event p own σ] := List.map_append
  rw [hlog, List.map_append]
  exact perm_snoc h.events _

theorem mem_snoc_of_ne {σ τ : Step} (h : τ ≠ σ) : τ ∈ done ++ [σ] ↔ τ ∈ done := by
  simp [h]

section

variable {σ : Step} (h : Holds p own s done t)
include h

theorem Holds.party_snoc (hσ : .key role ≠ σ) :
    t.parties.parties.get role = partyOf p own s (done ++ [σ]) role := by
  rw [h.party]
  simp only [partyOf, mem_snoc_of_ne hσ]

theorem Holds.deposit_snoc (hσ : .deposit role ≠ σ) :
    t.record.deposit role =
      if .deposit role ∈ done ++ [σ] then some (p.deposit role) else none := by
  rw [h.deposit]
  simp only [mem_snoc_of_ne hσ]

theorem Holds.escrow_snoc (hσ : .escrow ≠ σ) :
    t.escrow = if .escrow ∈ done ++ [σ] then some p.escrow else none := by
  rw [h.escrow]
  simp only [mem_snoc_of_ne hσ]

end

/-- A party's address and key come in. -/
theorem Holds.keyed (h : Holds p own s done t) {g : Registry}
    (hself : g.parties.get role = partyOf p own s (done ++ [.key role]) role)
    (hothers : ∀ r, r ≠ role → g.parties.get r = t.parties.parties.get r) (hrole : g.role = t.role)
    (now : UInt64) :
    Holds p own s (done ++ [.key role])
      { t.logged now (event p own (.key role)) with parties := g } where
  kept := h.kept
  role := hrole.trans h.role
  record := h.record
  party r := by
    by_cases hr : r = role
    · rw [hr]
      exact hself
    · exact (hothers r hr).trans (h.party_snoc fun e => hr (Step.key.inj e))
  deposit r := h.deposit_snoc nofun
  escrow := h.escrow_snoc nofun
  events := h.events_snoc now _

/-- A deposit comes in. -/
theorem Holds.deposited (h : Holds p own s done t) (now : UInt64) :
    Holds p own s (done ++ [.deposit role])
      { t.logged now (event p own (.deposit role)) with
        record := t.record.deposited role (p.deposit role) } where
  kept := h.kept
  role := h.role
  record := h.record
  party r := h.party_snoc nofun
  deposit r := by
    refine (Escrow.Record.deposited_deposit ..).trans ?_
    by_cases hr : r = role
    · simp [hr]
    · rw [if_neg hr]
      exact h.deposit_snoc fun e => hr (Step.deposit.inj e)
  escrow := h.escrow_snoc nofun
  events := h.events_snoc now _

/-- The escrow comes in. -/
theorem Holds.escrowed (h : Holds p own s done t) (now : UInt64) :
    Holds p own s (done ++ [.escrow])
      { t.logged now (escrowEvent p.escrow) with escrow := some p.escrow } where
  kept := h.kept
  role := h.role
  record := h.record
  party r := h.party_snoc nofun
  deposit r := h.deposit_snoc nofun
  escrow := by simp
  events := h.events_snoc now .escrow

/-- The escrow is not claimed before all keys are there. -/
theorem Reached.refuses_escrow (h : Reached p own s done t) (hkeys : ¬∀ r, .key r ∈ done)
    (now : UInt64) (meanwhile : Script) (later : UInt64) :
    Move.take p own t (.escrow now meanwhile later) = (false, t) := by
  cases hperform : t.perform now .claimMultisig with
  | mk answer u =>
    rw [Move.take, hperform]
    cases answer with
    | ok a =>
      obtain ⟨ticket, keys⟩ := a
      obtain ⟨-, hst, -⟩ := claimMultisig_ok (orKeep_eq_ok.1 hperform)
      exact absurd (hasKeys_iff.1 (hasKeys_of_stage (h.status.symm.trans hst))) hkeys
    | error e =>
      rw [orKeep_error hperform]

/-- The own deposit is not recorded before the escrow is there. -/
theorem Reached.refuses_ownDeposit (h : Reached p own s done t) (hescrow : .escrow ∉ done)
    (now : UInt64) :
    tried t now (depositCall p own own) = (false, t) := by
  rw [depositCall, if_pos rfl]
  cases hperform : t.perform now (.recordOwnDeposit (p.deposit own)) with
  | mk answer u =>
    cases answer with
    | ok a =>
      obtain ⟨-, hst, -⟩ := recordOwnDeposit_ok (orKeepUnit_eq_ok.1 hperform)
      exact absurd (escrow_of_stage (h.status.symm.trans hst)) hescrow
    | error e =>
      rw [orKeepUnit_error hperform] at hperform
      exact tried_error hperform

section

variable (hs : Begun own s) (h : Reached p own s done t)
include hs h

/-- A call that succeeds takes a step. -/
theorem Reached.takes {σ : Step} {v : Session} (hv : Reachable v) {a : c.Answer}
    (hc : c.IsMatched) (hperform : v.perform now c = (.ok a, (u.promoted now).touched now))
    (hu : Holds p own s (done ++ [σ]) u) (he : u.epoch = t.epoch)
    (hst : caught (done ++ [σ]) u.status = stage own (done ++ [σ]))
    (hk : σ = .escrow → ∀ r, .key r ∈ done) (hd : σ = .deposit own → .escrow ∈ done) :
    ∃ u, tried v now c = (true, u) ∧ Reached p own s (done ++ [σ]) u := by
  have hepoch : u.epoch + 1 = s.epoch + (done ++ [σ]).length := by
    rw [he, h.epoch, List.length_append, List.length_singleton, Nat.add_assoc]
  have hmem (τ : Step) : τ ∈ done ++ [σ] ↔ τ ∈ done ∨ τ = σ := by simp
  refine ⟨_, tried_ok hperform, hu.committed hs (hv.of_perform hc hperform) hst
    hepoch (fun hin r => ?_) (fun hin => ?_)⟩
  · rcases (hmem _).1 hin with hin | e
    · exact List.mem_append_left _ (h.keysFirst hin r)
    · exact List.mem_append_left _ (hk e.symm r)
  · rcases (hmem _).1 hin with hin | e
    · exact List.mem_append_left _ (h.escrowFirst hin)
    · exact List.mem_append_left _ (hd e.symm)

/-- The own key leads to InitData, and further if the peers' keys were ahead of it. -/
theorem Reached.takes_ownKey (hnew : .key own ∉ done) (now : UInt64) :
    ∃ u, tried t now (keyCall p own own) = (true, u) ∧
      Reached p own s (done ++ [.key own]) u := by
  have hescrow : .escrow ∉ done := fun he => hnew (h.keysFirst he own)
  have hst : t.status = .reserved := h.status.trans (stage_reserved hescrow hnew)
  have hset : t.setOwnKey (p.address own) (p.key own) now = _ :=
    setOwnKey_news (h.pending hs) (h.role_eq hs) (by rw [hst]; decide)
      ((h.address hs own).trans (if_neg hnew)) ((h.key hs own).trans (if_neg hnew))
  rw [keyed_of_reserved hst] at hset
  have hevent : ownKeyEvent (p.address own) (p.key own) = event p own (.key own) :=
    (if_pos rfl).symm
  have hself : (t.parties.registered own (p.address own) (p.key own)).parties.get own =
      partyOf p own s (done ++ [.key own]) own := by
    rw [Registry.registered, RoleMap.get_set_self]
    simp only [partyOf, List.mem_append, List.mem_singleton, or_true, if_true, Party.mk.injEq,
      true_and]
    exact h.peer hnew
  have hbrought := h.keyed hself (fun r hr => RoleMap.get_set_of_ne _ _ hr) rfl now
  rw [keyCall, if_pos rfl]
  refine h.takes hs h.reachable trivial (orKeep_eq_ok.2 hset) ?_ rfl ?_ nofun nofun
  · rw [hevent]
    refine hbrought.advanced ?_ now
    show climb .initData = climb t.status ++ [advanceEvent t.status .initData]
    rw [hst]
    rfl
  · have hbase : base own (done ++ [.key own]) = .initData := by simp [base, hescrow]
    rw [stage, hbase]
    rfl

/-- A peer's key waits for the own one, if that is not there. -/
theorem Reached.takes_peerKey (hr : role ≠ own) (hnew : .key role ∉ done) (now : UInt64) :
    ∃ u, tried t now (keyCall p own role) = (true, u) ∧
      Reached p own s (done ++ [.key role]) u := by
  have hescrow : .escrow ∉ done := fun he => hnew (h.keysFirst he role)
  have hst : t.status ∈ keyStatuses := by
    rw [h.status]
    exact stage_mem_keyStatuses hescrow
  have hset : t.learnKey role (p.address role) (p.key role) (p.peer role) now = _ :=
    learnKey_news (h.pending hs) (h.role_eq hs) hr hst
      ((h.address hs role).trans (if_neg hnew)) ((h.key hs role).trans (if_neg hnew))
  have hevent : learnedKeyEvent role (p.address role) (p.key role) = event p own (.key role) :=
    (if_neg hr).symm
  have hself : (introduced (t.parties.registered role (p.address role) (p.key role)) role
      (p.peer role)).parties.get role = partyOf p own s (done ++ [.key role]) role := by
    rw [introduced_get_self, h.peer hnew]
    simp [partyOf, hr]
  have hbrought := h.keyed hself (fun r hr => introduced_get_of_ne _ hr) (introduced_role ..) now
  rw [keyCall, if_neg hr]
  refine h.takes hs h.reachable trivial (orKeep_eq_ok.2 hset) ?_ rfl ?_ nofun nofun
  · rw [hevent]
    exact hbrought
  · have hne : Step.key role ≠ .key own := fun e => hr (Step.key.inj e)
    exact (congrArg _ h.status).trans (stage_snoc hne nofun).symm

/-- The escrow leads to MultisigAddr, since the own deposit cannot have been ahead of it. -/
theorem Reached.takes_escrow (hnew : .escrow ∉ done) (hkeys : ∀ r, .key r ∈ done)
    (now : UInt64) {meanwhile : Script} (later : UInt64)
    (hm : refuses (t.perform now .claimMultisig).2 meanwhile) :
    ∃ u, Move.take p own t (.escrow now meanwhile later) = (true, u) ∧
      Reached p own s (done ++ [.escrow]) u := by
  have hp : t.pending = none := h.pending hs
  have hst : t.status = .pubKey := h.status.trans (stage_pubKey hnew (hasKeys_iff.2 hkeys))
  obtain ⟨keys, hall⟩ := Registry.exists_keys fun r => by
    rw [h.key hs r, if_pos (hkeys r)]
    rfl
  have hclaim : t.perform now .claimMultisig = (.ok (⟨.deriveMultisig, t.epoch⟩, keys), _) :=
    orKeep_eq_ok.2 (claimMultisig_of hp hst hall)
  rw [hclaim] at hm
  have hclaimed := h.reachable.of_perform (c := .claimMultisig) trivial hclaim
  have hkept := after_refuses hclaimed hm
  -- the ticket leads back to where the claim was made
  have hidle : ({ t with pending := some .deriveMultisig } : Session).idle = t := by
    rw [idle, ← hp]
  have hcomplete : ({ t with pending := some .deriveMultisig } : Session).completeMultisig
      ⟨.deriveMultisig, t.epoch⟩ p.escrow later = _ := completeMultisig_of rfl rfl
  rw [hidle] at hcomplete
  have hperform : ({ t with pending := some .deriveMultisig } : Session).perform later
      (.completeMultisig ⟨.deriveMultisig, t.epoch⟩ p.escrow) = (.ok (), _) :=
    orKeepUnit_eq_ok.2 hcomplete
  rw [Move.take, hclaim]
  dsimp only
  rw [hkept]
  refine h.takes hs hclaimed rfl hperform ?_ rfl ?_ (fun _ => hkeys) fun e => by cases e
  · refine (h.escrowed later).advanced ?_ later
    show climb .multisigAddr = climb t.status ++ [advanceEvent t.status .multisigAddr]
    rw [hst]
    rfl
  · have hbase : base own (done ++ [.escrow]) = .multisigAddr := by simp [base]
    rw [stage, hbase]
    rfl

theorem Reached.takes_ownDeposit (hp : p.Distinct) (hnew : .deposit own ∉ done)
    (hescrow : .escrow ∈ done) (now : UInt64) :
    ∃ u, tried t now (depositCall p own own) = (true, u) ∧
      Reached p own s (done ++ [.deposit own]) u := by
  have hdeposits : ¬hasDeposits done := fun hd => hnew (hasDeposits_iff.1 hd own)
  have hst : t.status = .multisigAddr := h.status.trans (stage_multisigAddr hescrow hdeposits)
  have hset : t.recordOwnDeposit (p.deposit own) now = _ :=
    recordOwnDeposit_of (h.pending hs) (h.role_eq hs) hst (h.recordDeposit hp hnew)
  have hperform : t.perform now (.recordOwnDeposit (p.deposit own)) = (.ok (), _) :=
    orKeepUnit_eq_ok.2 hset
  rw [depositCall, if_pos rfl]
  refine h.takes hs h.reachable trivial hperform ?_ rfl ?_ nofun fun _ => hescrow
  · have hevent : ownDepositEvent (p.deposit own) = event p own (.deposit own) := (if_pos rfl).symm
    rw [hevent]
    exact h.deposited now
  · have hbase : base own (done ++ [.deposit own]) = .multisigAddr := by simp [base, hescrow]
    rw [stage, hbase]
    exact congrArg _ hst

/-- A peer's deposit waits for the escrow, if that is not there. -/
theorem Reached.takes_peerDeposit (hp : p.Distinct) (hr : role ≠ own)
    (hnew : .deposit role ∉ done) (now : UInt64) :
    ∃ u, tried t now (depositCall p own role) = (true, u) ∧
      Reached p own s (done ++ [.deposit role]) u := by
  have hdeposits : ¬hasDeposits done := fun hd => hnew (hasDeposits_iff.1 hd role)
  have hst : t.status ∈ depositStatuses := by
    rw [h.status]
    exact stage_mem_depositStatuses hdeposits
  have hset : t.learnDeposit role (p.deposit role) now = _ :=
    learnDeposit_of (h.pending hs) (h.role_eq hs) hr hst (h.recordDeposit hp hnew)
  have hperform : t.perform now (.learnDeposit role (p.deposit role)) = (.ok (), _) :=
    orKeepUnit_eq_ok.2 hset
  rw [depositCall, if_neg hr]
  refine h.takes hs h.reachable trivial hperform ?_ rfl ?_ nofun
    fun e => absurd (Step.deposit.inj e) hr
  · have hevent : learnedDepositEvent role (p.deposit role) = event p own (.deposit role) :=
      (if_neg hr).symm
    rw [hevent]
    exact h.deposited now
  · have hne : Step.deposit role ≠ .key own := nofun
    exact (congrArg _ h.status).trans (stage_snoc hne nofun).symm

/-- What was accepted may be announced again. -/
theorem Reached.repeated (hc : repeats p own done c = true) (now : UInt64) :
    Reached p own s done (t.perform now c).2 := by
  cases c with
  | learnKey r address key peer =>
    simp only [repeats, Bool.and_eq_true, decide_eq_true_eq] at hc
    obtain ⟨⟨⟨hr, hdone⟩, rfl⟩, rfl⟩ := hc
    have hst : t.status ≠ .notBegun := fun e =>
      nomatch (h.role_eq hs).symm.trans (h.reachable.consistent.parties.role_iff.2 e)
    have hlearn : t.learnKey r (p.address r) (p.key r) peer now = _ :=
      learnKey_known (h.pending hs) hst (h.role_eq hs) hr
        ((h.address hs r).trans (if_pos hdone)) ((h.key hs r).trans (if_pos hdone))
    have hperform : t.perform now (.learnKey r (p.address r) (p.key r) peer) = (.ok false, _) :=
      orKeep_eq_ok.2 hlearn
    have hreach := h.reachable.of_perform
      (c := .learnKey r (p.address r) (p.key r) peer) trivial hperform
    rw [hperform]
    exact ⟨⟨h.kept, h.role, h.record, h.party, h.deposit, h.escrow, h.events⟩, hreach, h.status,
      h.epoch, h.keysFirst, h.escrowFirst⟩
  | _ => cases hc

end

end Funding

end EscrowMix.Session
