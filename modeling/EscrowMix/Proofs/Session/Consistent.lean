import EscrowMix.Proofs.Session.Outcomes

/-!
What a session's status says about its data, in every session that calls can lead to.

    status                keys          escrow    deposits      distribution
    None                  none          none      none          none
    Reserved              not the own   none      not the own   none
    InitData              not all       none      not the own   none
    PubKey                all           none      not the own   none
    MultisigAddr          all           derived   not all       none
    DepositsObserved ..   all           derived   all           none
    DistTxRound0 ..       all           derived   all           that of the last round

Data may come ahead of the status, so the relation has two forms. In a lagging session the status
promises data; in a consistent one the data also forces the status. Catching up leads from the first
to the second, and every call ends with it.
-/

namespace EscrowMix

/-- The signatures that the distribution carries in a status. -/
def Status.signedCount : Status → UInt8
  | .distTxRound1 => 1
  | .distTxComplete | .complete => 2
  | _ => 0

theorem Status.le_iff {a b : Status} : a ≤ b ↔ a.rank ≤ b.rank := Iff.rfl

/-! ### The registry -/

/-- What a status promises about the registry: a role once the session began, the own key from
InitData on, all keys from PubKey on. Addresses come with their keys. -/
structure Registry.Follows (g : Registry) (st : Status) : Prop where
  role_iff : g.role = none ↔ st = .notBegun
  paired : ∀ r, (g.address r).isSome = (g.key r).isSome
  ownKey : ∀ own, g.role = some own → ((g.key own).isSome ↔ .initData ≤ st)
  allKeys : .pubKey ≤ st → ∀ r, (g.key r).isSome

namespace Registry.Follows

variable {g g' : Registry} {st st' : Status} {own role : Role} {a : Address} {k : PublicKey}

theorem empty : Registry.empty.Follows .notBegun :=
  ⟨by simp, by simp, by simp, nofun⟩

/-- Only the own role, the addresses and the keys matter. -/
theorem congr (h : g.Follows st) (hr : g'.role = g.role) (ha : ∀ r, g'.address r = g.address r)
    (hk : ∀ r, g'.key r = g.key r) : g'.Follows st where
  role_iff := hr ▸ h.role_iff
  paired r := by rw [ha, hk]; exact h.paired r
  ownKey own ho := by rw [hk]; exact h.ownKey own (hr ▸ ho)
  allKeys hst r := by rw [hk]; exact h.allKeys hst r

/-- A role is taken up. -/
theorem begun (role : Role) : { Registry.empty with role := some role }.Follows .reserved where
  role_iff := by simp
  paired := empty.paired
  ownKey own _ := by
    have hk : ({ Registry.empty with role := some role } : Registry).key own = none := empty_key own
    rw [hk]
    exact ⟨nofun, nofun⟩
  allKeys := nofun

/-- Once all keys are known, the registry promises as much in every later status. -/
theorem move (h : g.Follows st) (hst : .initData ≤ st) (hst' : .initData ≤ st')
    (hall : ∀ r, (g.key r).isSome) : g.Follows st' where
  role_iff := by
    rw [h.role_iff]
    exact ⟨fun e => by rw [e] at hst; contradiction, fun e => by rw [e] at hst'; contradiction⟩
  paired := h.paired
  ownKey own _ := ⟨fun _ => hst', fun _ => hall own⟩
  allKeys _ := hall

/-- The own key leads from Reserved to InitData. -/
theorem registered_own (h : g.Follows .reserved) (ho : g.role = some own) :
    (g.registered own a k).Follows .initData where
  role_iff := by simp [ho]
  paired r := by
    rw [registered_address, registered_key]
    split
    · rfl
    · exact h.paired r
  ownKey own' ho' := by
    obtain rfl : own = own' := Option.some.inj (ho.symm.trans ho')
    simp [registered_key, Status.le_iff]
  allKeys := nofun

/-- The key of another party keeps the status. -/
theorem registered_other (h : g.Follows st) (ho : g.role = some own) (hr : role ≠ own) :
    (g.registered role a k).Follows st where
  role_iff := h.role_iff
  paired r := by
    rw [registered_address, registered_key]
    split
    · rfl
    · exact h.paired r
  ownKey own' ho' := by
    obtain rfl : own = own' := Option.some.inj (ho.symm.trans ho')
    rw [registered_key, if_neg (Ne.symm hr)]
    exact h.ownKey own ho
  allKeys hst r := by
    rw [registered_key]
    split
    · rfl
    · exact h.allKeys hst r

end Registry.Follows

/-! ### The record -/

/-- What a status promises about the record of a session with this role: no own deposit before
MultisigAddr, all deposits from DepositsObserved on, and from DistTxRound0 on the distribution with
the signatures of its round. The deposits are different outputs, and only a deposit has a way
back. -/
structure Escrow.Record.Follows (r : Escrow.Record) (role : Option Role) (st : Status) : Prop where
  ownDeposit : ∀ own, role = some own → (r.deposit own).isSome → .multisigAddr ≤ st
  allDeposits : .depositsObserved ≤ st → ∀ q, (r.deposit q).isSome
  outPoints : ∀ q q' d d', r.deposit q = some d → r.deposit q' = some d' →
    d.outPoint = d'.outPoint → q = q'
  reclaimable : ∀ q, r.reclaimable.get q = true → (r.deposit q).isSome
  candidate : r.candidate.isSome ↔ .distTxRound0 ≤ st
  signedCount : r.signedCount = st.signedCount

namespace Escrow.Record.Follows

variable {r : Record} {role : Option Role} {st st' : Status} {q : Role} {d : Deposit} {tx : Bytes}

theorem empty : Record.empty.Follows role .notBegun where
  ownDeposit := by simp
  allDeposits := nofun
  outPoints := by simp
  reclaimable := by simp
  candidate := ⟨nofun, nofun⟩
  signedCount := rfl

/-- Before the distribution a status may change as far as the deposits allow. -/
theorem move (h : r.Follows role st) (hst : st < .distTxRound0) (hst' : st' < .distTxRound0)
    (hown : ∀ own, role = some own → (r.deposit own).isSome → .multisigAddr ≤ st')
    (hall : .depositsObserved ≤ st' → ∀ q, (r.deposit q).isSome) : r.Follows role st' where
  ownDeposit := hown
  allDeposits := hall
  outPoints := h.outPoints
  reclaimable := h.reclaimable
  candidate := by
    rw [h.candidate]
    exact ⟨fun h => absurd hst (Nat.not_lt.2 h), fun h => absurd hst' (Nat.not_lt.2 h)⟩
  signedCount := by
    rw [h.signedCount]
    cases st <;> cases st' <;> first | rfl | contradiction

/-- A deposit of an output that no role holds. The own one has to wait for the escrow. -/
theorem deposited (h : r.Follows role st) (hown : role = some q → .multisigAddr ≤ st)
    (hout : ∀ q' d', r.deposit q' = some d' → d'.outPoint ≠ d.outPoint) :
    (r.deposited q d).Follows role st where
  ownDeposit own ho hd := by
    rw [deposited_deposit] at hd
    split at hd
    · next e => exact hown (e ▸ ho)
    · exact h.ownDeposit own ho hd
  allDeposits hst q' := by
    rw [deposited_deposit]
    split
    · rfl
    · exact h.allDeposits hst q'
  outPoints q₁ q₂ d₁ d₂ h₁ h₂ he := by
    rw [deposited_deposit] at h₁ h₂
    split at h₁ <;> split at h₂
    · next e₁ e₂ => exact e₁.trans e₂.symm
    · cases h₁; exact absurd he.symm (hout q₂ d₂ h₂)
    · cases h₂; exact absurd he (hout q₁ d₁ h₁)
    · exact h.outPoints q₁ q₂ d₁ d₂ h₁ h₂ he
  reclaimable q' hq' := by
    rw [deposited_deposit]
    split
    · rfl
    · exact h.reclaimable q' hq'
  candidate := h.candidate
  signedCount := h.signedCount

theorem reclaimed (h : r.Follows role st) (hq : (r.deposit q).isSome) :
    (r.reclaimed q).Follows role st where
  ownDeposit := h.ownDeposit
  allDeposits := h.allDeposits
  outPoints := h.outPoints
  reclaimable q' hq' := by
    rw [reclaimed_reclaimable] at hq'
    split at hq'
    · next e => exact e ▸ hq
    · exact h.reclaimable q' hq'
  candidate := h.candidate
  signedCount := h.signedCount

/-- The round that comes next leads to its status. -/
theorem proposed (h : r.Follows role st) {round : UInt8}
    (hround : st.expectedRound? = some round) :
    (r.proposed tx round).Follows role (.afterRound round) := by
  have hall : ∀ q, (r.deposit q).isSome := by
    refine h.allDeposits ?_
    cases st <;> first | decide | contradiction
  have hst' : .distTxRound0 ≤ Status.afterRound round ∧
      round = (Status.afterRound round).signedCount := by
    cases st <;> cases hround <;> decide
  exact {
    ownDeposit := fun _ _ _ => Nat.le_trans (by decide) hst'.1
    allDeposits := fun _ => hall
    outPoints := h.outPoints
    reclaimable := h.reclaimable
    candidate := ⟨fun _ => hst'.1, fun _ => rfl⟩
    signedCount := hst'.2 }

/-- The broadcast keeps the distribution. -/
theorem completed (h : r.Follows role .distTxComplete) : r.Follows role .complete where
  ownDeposit _ _ _ := by decide
  allDeposits _ := h.allDeposits (by decide)
  outPoints := h.outPoints
  reclaimable := h.reclaimable
  candidate := ⟨fun _ => by decide, fun _ => h.candidate.2 (by decide)⟩
  signedCount := h.signedCount

end Escrow.Record.Follows

/-! ### The session -/

namespace Session

/-- Whether a transition can be outstanding in a session: each waits in one status, and a round is
produced by the role whose turn it is. -/
def Awaits (s : Session) : Transition → Prop
  | .deriveMultisig => s.status = .pubKey
  | .verifyDeposits => s.status = .depositsObserved
  | .signature round =>
    s.status.expectedRound? = some round ∧ Role.forRound? round = s.role
  | .commit => s.status = .distTxComplete

/-- A session whose data is at least what its status promises. -/
structure Lagging (s : Session) : Prop where
  parties : s.parties.Follows s.status
  record : s.record.Follows s.role s.status
  /-- Before the beginning there is nothing. -/
  blank : s.status = .notBegun → s.schedule = .empty ∧ s.constraints = .none ∧
    s.parties = .empty ∧ s.record = .empty ∧ s.escrowFailure = none
  schedule : s.status ≠ .notBegun → s.schedule.isEmpty = false
  escrow : s.escrow.isSome ↔ .multisigAddr ≤ s.status
  /-- A failed check waits for the next one. -/
  failure : s.escrowFailure.isSome → s.status = .depositsObserved
  pending : ∀ t, s.pending = some t → s.Awaits t

/-- A session whose status and data agree. -/
structure Consistent (s : Session) : Prop extends Lagging s where
  keysSettled : (∀ r, (s.parties.key r).isSome) → .pubKey ≤ s.status
  depositsSettled : (∀ r, (s.record.deposit r).isSome) → .depositsObserved ≤ s.status

variable {s s' : Session} {now : UInt64}

theorem fresh_consistent (id : SessionId) (fees : FeePolicy) (now : UInt64) :
    Consistent (fresh id fees now) where
  parties := .empty
  record := .empty
  blank _ := ⟨rfl, rfl, rfl, rfl, rfl⟩
  schedule h := absurd rfl h
  escrow := ⟨nofun, nofun⟩
  failure := nofun
  pending := nofun
  keysSettled h := nomatch h .sender
  depositsSettled h := nomatch h .sender

theorem Lagging.not_failed (h : Lagging s) (hst : s.status ≠ .depositsObserved) :
    s.escrowFailure = none :=
  Option.not_isSome_iff_eq_none.1 fun hf => hst (h.failure hf)

theorem Lagging.not_escrowed (h : Lagging s) (hst : ¬.multisigAddr ≤ s.status) :
    s.escrow = none :=
  Option.not_isSome_iff_eq_none.1 fun he => hst (h.escrow.1 he)

theorem Lagging.exists_role (h : Lagging s) (hst : s.status ≠ .notBegun) :
    ∃ own, s.role = some own :=
  Option.ne_none_iff_exists'.1 fun hr => hst (h.parties.role_iff.1 hr)

/-- The keys can be ahead of the status in InitData only, since the own one is not there before. -/
theorem Lagging.begun_of_deposit (h : Lagging s) {r : Role} (hd : (s.record.deposit r).isSome) :
    s.status ≠ .notBegun := by
  intro e
  obtain ⟨-, -, -, hr, -⟩ := h.blank e
  rw [hr, Escrow.Record.empty_deposit] at hd
  cases hd

theorem Lagging.keysSettled (h : Lagging s) (hst : s.status ≠ .notBegun)
    (hi : s.status = .initData → ¬∀ r, (s.parties.key r).isSome)
    (hall : ∀ r, (s.parties.key r).isSome) : .pubKey ≤ s.status := by
  obtain ⟨own, ho⟩ := h.exists_role hst
  have hle : .initData ≤ s.status := (h.parties.ownKey own ho).1 (hall own)
  refine Nat.lt_of_le_of_ne hle fun e => hi ?_ hall
  exact Status.rank_inj e.symm

/-- The deposits can be ahead of the status in MultisigAddr only, since the own one is not there
before. -/
theorem Lagging.depositsSettled (h : Lagging s) (hst : s.status ≠ .notBegun)
    (hm : s.status = .multisigAddr → ¬∀ r, (s.record.deposit r).isSome)
    (hall : ∀ r, (s.record.deposit r).isSome) : .depositsObserved ≤ s.status := by
  obtain ⟨own, ho⟩ := h.exists_role hst
  have hle : .multisigAddr ≤ s.status := h.record.ownDeposit own ho (hall own)
  refine Nat.lt_of_le_of_ne hle fun e => hm ?_ hall
  exact Status.rank_inj e.symm

/-- A change of status in the midst of a session, given what the new status promises. -/
theorem Lagging.advanced (h : Lagging s) (hp : s.pending = none) (hst : s.status ≠ .notBegun)
    (st : Status) (hst' : st ≠ .notBegun) (hparties : s.parties.Follows st)
    (hrecord : s.record.Follows s.role st) (hescrow : s.escrow.isSome ↔ .multisigAddr ≤ st)
    (hfailure : s.escrowFailure = none) (now : UInt64) : Lagging (s.advanced st now) where
  parties := hparties
  record := hrecord
  blank h := absurd h hst'
  schedule _ := h.schedule hst
  escrow := hescrow
  failure hf := by
    rw [show (s.advanced st now).escrowFailure = none from hfailure] at hf
    cases hf
  pending t ht := by rw [show s.pending = some t from ht] at hp; cases hp

/-- Catching up is all that a lagging session needs. -/
theorem Lagging.promoted (h : Lagging s) (hst : s.status ≠ .notBegun) (hp : s.pending = none)
    (now : UInt64) : Consistent (s.promoted now) := by
  unfold Session.promoted caughtUp?
  have hescrow := h.escrow
  split
  · next st hc =>
    split at hc
    · next hi =>
      obtain ⟨hk, hc⟩ := Option.ite_none_right_eq_some.1 hc
      obtain rfl := Option.some.inj hc
      rw [Registry.hasAllKeys_iff] at hk
      have hown : ∀ own, s.role = some own → (s.record.deposit own).isSome →
          .multisigAddr ≤ Status.pubKey := fun own ho hd => by
        have hle := h.record.ownDeposit own ho hd
        rw [hi] at hle
        contradiction
      have h' := h.advanced hp hst .pubKey nofun (h.parties.move (by rw [hi]; decide) (by decide) hk)
        (h.record.move (by rw [hi]; decide) (by decide) hown nofun) (by rw [hescrow, hi]; decide)
        (h.not_failed (by simp [hi])) now
      exact ⟨h', fun _ => Nat.le_refl _, h'.depositsSettled nofun nofun⟩
    · next hm =>
      obtain ⟨hd, hc⟩ := Option.ite_none_right_eq_some.1 hc
      obtain rfl := Option.some.inj hc
      rw [Escrow.Record.hasAllDeposits_iff] at hd
      have hk : ∀ r, (s.parties.key r).isSome := h.parties.allKeys (by rw [hm]; decide)
      have h' := h.advanced hp hst .depositsObserved nofun
        (h.parties.move (by rw [hm]; decide) (by decide) hk)
        (h.record.move (by rw [hm]; decide) (by decide) (fun _ _ _ => by decide) fun _ => hd)
        (by rw [hescrow, hm]; decide) (h.not_failed (by simp [hm])) now
      exact ⟨h', fun _ => (by decide : Status.pubKey ≤ .depositsObserved), fun _ => Nat.le_refl _⟩
    · cases hc
  · next hc =>
    refine ⟨h, h.keysSettled hst fun hi hall => ?_, h.depositsSettled hst fun hm hall => ?_⟩
    · rw [hi, if_pos (Registry.hasAllKeys_iff.2 hall)] at hc
      cases hc
    · rw [hm, if_pos (Escrow.Record.hasAllDeposits_iff.2 hall)] at hc
      cases hc

theorem Lagging.consistent (h : Lagging s) (hst : s.status ≠ .notBegun)
    (hi : s.status ≠ .initData) (hm : s.status ≠ .multisigAddr) : Consistent s :=
  ⟨h, h.keysSettled hst (absurd · hi), h.depositsSettled hst (absurd · hm)⟩

/-! ### What calls leave -/

/-- The log, the times and the flag do not matter. -/
theorem Consistent.bookkept (h : Consistent s) (log : List LogEntry) (lastActivity : UInt64)
    (epoch : Nat) (needsIntervention : Bool) : Consistent { s with
      log := log
      lastActivity := lastActivity
      epoch := epoch
      needsIntervention := needsIntervention } :=
  ⟨⟨h.parties, h.record, h.blank, h.schedule, h.escrow, h.failure, h.pending⟩, h.keysSettled,
    h.depositsSettled⟩

theorem Consistent.idle (h : Consistent s) : Consistent s.idle :=
  ⟨⟨h.parties, h.record, h.blank, h.schedule, h.escrow, h.failure, nofun⟩, h.keysSettled,
    h.depositsSettled⟩

theorem Consistent.claimed (h : Consistent s) {t : Transition} (ht : s.Awaits t) :
    Consistent { s with pending := some t } :=
  ⟨⟨h.parties, h.record, h.blank, h.schedule, h.escrow, h.failure,
    fun _ ht' => Option.some.inj ht' ▸ ht⟩, h.keysSettled, h.depositsSettled⟩

theorem cleared_consistent (s : Session) (keepLog : Bool) (now : UInt64) :
    Consistent (s.cleared keepLog now) :=
  (fresh_consistent s.id s.fees now).bookkept _ _ _ _

/-- A beginning: the terms are set, and a role is all that the registry knows. -/
theorem Consistent.begun (h : Consistent s) (hst : s.status = .notBegun) (hp : s.pending = none)
    {r : Role} {g : Registry} (hrole : g.role = some r) (ha : ∀ r, g.address r = none)
    (hk : ∀ r, g.key r = none) {schedule : Schedule} (hs : schedule.isEmpty = false)
    (constraints : CoinConstraints) (fees : FeePolicy) (log : List LogEntry) (lastActivity : UInt64)
    (epoch : Nat) : Consistent { s with
      status := .reserved
      parties := g
      schedule := schedule
      constraints := constraints
      fees := fees
      log := log
      lastActivity := lastActivity
      epoch := epoch } := by
  obtain ⟨-, -, -, hrecord, hfailure⟩ := h.blank hst
  refine Lagging.consistent ⟨?_, ?_, nofun, fun _ => hs, ?_, ?_, ?_⟩ nofun nofun nofun
  · exact (Registry.Follows.begun r).congr hrole (fun r => (ha r).trans (by cases r <;> rfl))
      fun r => (hk r).trans (by cases r <;> rfl)
  · show s.record.Follows g.role .reserved
    rw [hrecord]
    exact Escrow.Record.Follows.empty.move (by decide) (by decide) (by simp) nofun
  · show s.escrow.isSome ↔ .multisigAddr ≤ Status.reserved
    rw [h.escrow, hst]
    decide
  · intro hf
    rw [show s.escrowFailure = none from hfailure] at hf
    cases hf
  · intro t ht
    rw [show s.pending = some t from ht] at hp
    cases hp

theorem beginAsSender_consistent (h : Consistent s) {schedule : Schedule}
    {constraints : CoinConstraints} {mixer guarantor : PeerId}
    (hs : s.beginAsSender schedule constraints mixer guarantor now = .ok s') : Consistent s' := by
  obtain ⟨hp, hst, he, parties, hset, rfl⟩ := beginAsSender_ok hs
  obtain ⟨-, -, hparties, -⟩ := h.blank hst
  rw [hparties, Registry.setRole_eq_ok rfl] at hset
  subst hset
  exact h.begun hst hp (r := .sender) rfl (fun r => by cases r <;> rfl)
    (fun r => by cases r <;> rfl) he constraints s.fees _ _ _

theorem beginInvited_consistent (h : Consistent s) {role : Role} {sender : PeerId}
    {schedule : Schedule} {fees : FeePolicy} {constraints : CoinConstraints}
    (hs : s.beginInvited role sender schedule fees constraints now = .ok s') : Consistent s' := by
  obtain ⟨hp, hst, -, he, parties, hset, rfl⟩ := beginInvited_ok hs
  obtain ⟨-, -, hparties, -⟩ := h.blank hst
  rw [hparties, Registry.setRole_eq_ok rfl] at hset
  subst hset
  exact h.begun hst hp (r := role) rfl (fun r => by cases r <;> rfl)
    (fun r => by cases r <;> rfl) he constraints fees _ _ _

/-- A step in the midst of a session: whatever follows the new status makes it lag at most. -/
theorem Consistent.moved (h : Consistent s) (hst : s.status ≠ .notBegun) {p : Option Transition}
    (hp : p = none) (st : Status) (hst' : st ≠ .notBegun) {g : Registry} {r : Escrow.Record}
    {m : Option Multisig} (hg : g.Follows st) (hr : r.Follows g.role st)
    (hm : m.isSome ↔ .multisigAddr ≤ st) (failure : Option EscrowFailure)
    (hf : failure.isSome → st = .depositsObserved) (log : List LogEntry) : Lagging { s with
      status := st
      parties := g
      record := r
      escrow := m
      escrowFailure := failure
      log := log
      pending := p } where
  parties := hg
  record := hr
  blank hb := absurd hb hst'
  schedule _ := h.schedule hst
  escrow := hm
  failure := hf
  pending t ht := by rw [show p = some t from ht] at hp; cases hp

theorem Consistent.reserved_of_no_key (h : Consistent s) {own : Role} (ho : s.role = some own)
    (hst : s.status ∈ keyStatuses) (hk : s.parties.key own = none) : s.status = .reserved := by
  have hlt : ¬.initData ≤ s.status := fun hle => by
    have hsome := (h.parties.ownKey own ho).2 hle
    rw [hk] at hsome
    cases hsome
  simp only [keyStatuses, List.mem_cons, List.not_mem_nil, or_false] at hst
  rcases hst with hst | hst | hst
  · exact hst
  · exact absurd (by rw [hst]; decide) hlt
  · exact absurd (by rw [hst]; decide) hlt

theorem setOwnKey_consistent (h : Consistent s) {address : Address} {key : PublicKey} {news : Bool}
    (hs : s.setOwnKey address key now = .ok (news, s')) : Consistent s' := by
  obtain ⟨hp, hst, own, ho, ⟨-, -, hk, rfl⟩ | ⟨-, -, -, rfl⟩⟩ := setOwnKey_ok hs
  · have hr : s.status = .reserved := h.reserved_of_no_key ho hst hk
    have hparties : (s.parties.registered own address key).Follows .initData :=
      (hr ▸ h.parties).registered_own ho
    have hrecord : s.record.Follows s.role .initData :=
      h.record.move (by rw [hr]; decide) (by decide) (fun q hq hd => by
        have hle := h.record.ownDeposit q hq hd
        rw [hr] at hle
        contradiction) nofun
    have hlag := h.moved (by simp [hr]) hp .initData nofun hparties hrecord
      (m := s.escrow) (by rw [h.escrow, hr]; decide) s.escrowFailure
      fun hf => absurd (h.failure hf) (by simp [hr])
    rw [keyed_of_reserved hr]
    exact ((hlag _).promoted nofun hp now).bookkept _ _ _ _
  · exact h.bookkept _ _ _ _

theorem introduced_address (g : Registry) (role : Role) (peer : Option PeerId) (r : Role) :
    (introduced g role peer).address r = g.address r := by
  unfold introduced
  split
  · exact Registry.setPeer_address ..
  · rfl

theorem introduced_key (g : Registry) (role : Role) (peer : Option PeerId) (r : Role) :
    (introduced g role peer).key r = g.key r := by
  unfold introduced
  split
  · exact Registry.setPeer_key ..
  · rfl

theorem introduced_role (g : Registry) (role : Role) (peer : Option PeerId) :
    (introduced g role peer).role = g.role := by
  unfold introduced
  split <;> rfl

theorem learnKey_consistent (h : Consistent s) {role : Role} {address : Address} {key : PublicKey}
    {peer : Option PeerId} {news : Bool}
    (hs : s.learnKey role address key peer now = .ok (news, s')) : Consistent s' := by
  obtain ⟨hp, hst, ⟨own, ho, hr⟩, ⟨-, -, -, -, rfl⟩ | ⟨-, -, -, rfl⟩⟩ := learnKey_ok hs
  · have hrole := introduced_role (s.parties.registered role address key) role peer
    have hparties : (introduced (s.parties.registered role address key) role peer).Follows
        s.status :=
      (h.parties.registered_other ho hr).congr hrole (introduced_address _ _ _)
        (introduced_key _ _ _)
    have hlag := h.moved hst hp s.status hst hparties (by rw [hrole]; exact h.record)
      h.escrow s.escrowFailure h.failure
    exact ((hlag _).promoted hst hp now).bookkept _ _ _ _
  · exact h.bookkept _ _ _ _

theorem Consistent.awaits (h : Consistent s) {ticket : Ticket} {t : Transition}
    (hp : s.pending = some ticket.transition) (ht : ticket.transition = t) : s.Awaits t :=
  h.pending t (ht ▸ hp)

theorem completeMultisig_consistent (h : Consistent s) {ticket : Ticket} {escrow : Multisig}
    (ht : ticket.transition = .deriveMultisig)
    (hs : s.completeMultisig ticket escrow now = .ok s') : Consistent s' := by
  obtain ⟨hp, -, rfl⟩ := completeMultisig_ok hs
  have hst : s.status = .pubKey := h.awaits hp ht
  have hparties : s.parties.Follows .multisigAddr :=
    h.parties.move (by rw [hst]; decide) (by decide) (h.parties.allKeys (by rw [hst]; decide))
  have hrecord : s.record.Follows s.role .multisigAddr :=
    h.record.move (by rw [hst]; decide) (by decide) (fun _ _ _ => by decide) nofun
  have hlag := h.moved (by simp [hst]) (p := none) rfl .multisigAddr nofun hparties hrecord
    (m := some escrow) ⟨fun _ => by decide, fun _ => rfl⟩ s.escrowFailure
    fun hf => absurd (h.failure hf) (by simp [hst])
  exact ((hlag _).promoted nofun rfl now).bookkept _ _ _ _

/-! ### Deposits -/

theorem deposited_consistent (h : Consistent s) {role : Role} {deposit : Deposit}
    {record : Escrow.Record} (hst : s.status ≠ .notBegun) (hp : s.pending = none)
    (hown : s.role = some role → .multisigAddr ≤ s.status)
    (hrec : s.record.recordDeposit role deposit = .ok record) (event : String) (now : UInt64) :
    Consistent (s.deposited record event now) := by
  obtain ⟨-, hout, rfl⟩ := Escrow.Record.recordDeposit_eq_ok.1 hrec
  have hlag := h.moved hst hp s.status hst h.parties (h.record.deposited hown hout) h.escrow
    s.escrowFailure h.failure
  exact ((hlag _).promoted hst hp now).bookkept _ _ _ _

theorem learnDeposit_consistent (h : Consistent s) {role : Role} {deposit : Deposit}
    (hs : s.learnDeposit role deposit now = .ok s') : Consistent s' := by
  obtain ⟨hp, hst, ⟨own, ho, hr⟩, record, hrec, rfl⟩ := learnDeposit_ok hs
  have hst' : s.status ≠ .notBegun := by
    intro e
    rw [e] at hst
    exact absurd hst (by decide)
  have hown : s.role = some role → .multisigAddr ≤ s.status := fun e =>
    absurd (Option.some.inj (e.symm.trans ho)) hr
  exact deposited_consistent h hst' hp hown hrec _ now

theorem judged_consistent (h : Consistent s) {ticket : Ticket}
    (ht : ticket.transition = .verifyDeposits) (hh : s.honours ticket) (verdict : Verdict)
    (now : UInt64) : Consistent (s.idle.judged verdict now) := by
  have hst : s.status = .depositsObserved := h.awaits (honours_iff.1 hh).1 ht
  have hall : ∀ r, (s.parties.key r).isSome := h.parties.allKeys (by rw [hst]; decide)
  have hdep : ∀ q, (s.record.deposit q).isSome := h.record.allDeposits (by rw [hst]; decide)
  cases verdict with
  | rejected failure =>
    have hlag := h.moved (p := none) (by simp [hst]) rfl s.status (by simp [hst]) h.parties
      h.record h.escrow (some failure) fun _ => hst
    exact ((hlag _).consistent (by simp [hst]) (by simp [hst]) (by simp [hst])).bookkept _ _ _ _
  | accepted =>
    have hparties : s.parties.Follows .depositsVerified :=
      h.parties.move (by rw [hst]; decide) (by decide) hall
    have hrecord : s.record.Follows s.role .depositsVerified :=
      h.record.move (by rw [hst]; decide) (by decide) (fun _ _ _ => by decide) fun _ => hdep
    have hlag := h.moved (p := none) (by simp [hst]) rfl .depositsVerified nofun hparties
      hrecord (m := s.escrow) (by rw [h.escrow, hst]; decide) none nofun
    exact ((hlag _).consistent nofun nofun nofun).bookkept _ _ _ _

/-! ### Distribution rounds -/

theorem roundRecorded_consistent (h : Consistent s) {round : UInt8} {candidate : Bytes}
    {record : Escrow.Record} (hround : s.status.expectedRound? = some round)
    (hp : s.pending = none) (hrec : s.record.setCandidate candidate round = .ok record)
    (verb : String) (now : UInt64) : Consistent (s.roundRecorded record round verb now) := by
  obtain ⟨-, rfl⟩ := Escrow.Record.setCandidate_eq_ok.1 hrec
  have hst : .depositsVerified ≤ s.status ∧ .distTxRound0 ≤ Status.afterRound round := by
    cases hs : s.status <;> rw [hs] at hround <;> cases hround <;> decide
  have hle : .multisigAddr ≤ s.status := Nat.le_trans (by decide) hst.1
  have hle' : .multisigAddr ≤ Status.afterRound round := Nat.le_trans (by decide) hst.2
  have hparties : s.parties.Follows (.afterRound round) :=
    h.parties.move (Nat.le_trans (by decide) hle) (Nat.le_trans (by decide) hle')
      (h.parties.allKeys (Nat.le_trans (by decide) hle))
  have hne : s.status ≠ .notBegun := by
    intro e
    rw [e] at hle
    exact absurd hle (by decide)
  have hfailed : s.status ≠ .depositsObserved := by
    intro e
    rw [e] at hround
    cases hround
  have hlate : ∀ st, .distTxRound0 ≤ Status.afterRound round → st < Status.distTxRound0 →
      Status.afterRound round ≠ st :=
    fun st hl hr e => absurd (e ▸ hl) (Nat.not_le.2 hr)
  have hlag := h.moved hne hp (.afterRound round) (hlate _ hst.2 (by decide)) hparties
    (r := s.record.proposed candidate round) (h.record.proposed hround) (m := s.escrow)
    ⟨fun _ => hle', fun _ => h.escrow.2 hle⟩ s.escrowFailure
    fun hf => absurd (h.failure hf) hfailed
  exact ((hlag _).consistent (hlate _ hst.2 (by decide)) (hlate _ hst.2 (by decide))
    (hlate _ hst.2 (by decide))).bookkept _ _ _ _

theorem completeCommit_consistent (h : Consistent s) {ticket : Ticket}
    (ht : ticket.transition = .commit) (hs : s.completeCommit ticket now = .ok s') :
    Consistent s' := by
  obtain ⟨hp, -, rfl⟩ := completeCommit_ok hs
  have hst : s.status = .distTxComplete := h.awaits hp ht
  have hparties : s.parties.Follows .complete :=
    h.parties.move (by rw [hst]; decide) (by decide) (h.parties.allKeys (by rw [hst]; decide))
  have hrecord : s.record.Follows s.role .complete := (hst ▸ h.record).completed
  have hlag := h.moved (by simp [hst]) (p := none) rfl .complete nofun hparties hrecord
    (m := s.escrow) (by rw [h.escrow, hst]; decide) s.escrowFailure
    fun hf => absurd (h.failure hf) (by simp [hst])
  exact ((hlag _).consistent nofun nofun nofun).bookkept _ _ _ _

/-! ### Ways out -/

theorem markReclaimable_consistent (h : Consistent s) {role : Role}
    (hs : s.markReclaimable role now = .ok s') : Consistent s' := by
  obtain ⟨-, hd, rfl⟩ := markReclaimable_ok hs
  have hb : s.status ≠ .notBegun := h.begun_of_deposit hd
  have h' : Consistent { s with record := s.record.reclaimed role } :=
    ⟨⟨h.parties, h.record.reclaimed hd, fun e => absurd e hb, h.schedule, h.escrow, h.failure,
      h.pending⟩, h.keysSettled, h.depositsSettled⟩
  exact h'.bookkept _ _ _ _

theorem setPeer_consistent (h : Consistent s) {role : Role} {peer : PeerId}
    (hs : s.setPeer role peer = .ok s') : Consistent s' := by
  obtain ⟨⟨own, ho, -⟩, rfl⟩ := setPeer_ok hs
  have hb : s.status ≠ .notBegun := fun e => by
    rw [show s.role = none from h.parties.role_iff.2 e] at ho
    cases ho
  have hparties : (s.parties.setPeer role peer).Follows s.status :=
    h.parties.congr rfl (by simp) (by simp)
  exact ⟨⟨hparties, h.record, fun e => absurd e hb, h.schedule, h.escrow, h.failure, h.pending⟩,
    fun hall => h.keysSettled (by simpa using hall), h.depositsSettled⟩

/-! ### Runs -/

/-- A call whose ticket, if it has one, is for the transition that it completes. -/
def Call.IsMatched : Call → Prop
  | .completeMultisig ticket _ => ticket.transition = .deriveMultisig
  | .completeVerification ticket _ => ticket.transition = .verifyDeposits
  | .completeSignature ticket _ _ => ∃ round, ticket.transition = .signature round
  | .completeCommit ticket => ticket.transition = .commit
  | _ => True

/-- The sessions that calls can lead to. Tickets may be used again, and even be made up, as long as
they are for the right transition. -/
inductive Reachable : Session → Prop
  | fresh (id : SessionId) (fees : FeePolicy) (now : UInt64) : Reachable (.fresh id fees now)
  | perform {s : Session} (h : Reachable s) (now : UInt64) (c : Call) (hc : c.IsMatched) :
    Reachable (s.perform now c).2

theorem Reachable.of_perform (h : Reachable s) {c : Call} (hc : c.IsMatched)
    {answer : Except Error c.Answer} (hs : s.perform now c = (answer, s')) : Reachable s' := by
  have hreach := h.perform now c hc
  rwa [hs] at hreach

/-- Every call keeps the status and the data in agreement. -/
theorem Consistent.performed (h : Consistent s) {c : Call} (hc : c.IsMatched)
    {answer : Except Error c.Answer} (hs : s.perform now c = (answer, s')) : Consistent s' := by
  cases perform_outcome hs with
  | refused | ignored | flaggedBefore => exact h
  | begunAsSender => exact beginAsSender_consistent h (orKeepUnit_eq_ok.1 hs)
  | begunInvited => exact beginInvited_consistent h (orKeepUnit_eq_ok.1 hs)
  | ownKey | ownKeyAgain => exact setOwnKey_consistent h (orKeep_eq_ok.1 hs)
  | peerKey | peerKeyAgain => exact learnKey_consistent h (orKeep_eq_ok.1 hs)
  | claimedMultisig _ hst | claimedVerification _ hst | claimedCommit _ hst => exact h.claimed hst
  | claimedSignature _ ho hround hturn => exact h.claimed ⟨hround, hturn.trans ho.symm⟩
  | multisig => exact completeMultisig_consistent h hc (orKeepUnit_eq_ok.1 hs)
  | ownDeposit hp hst _ hrec =>
    have hown : .multisigAddr ≤ s.status := Nat.le_of_eq (by rw [hst])
    exact deposited_consistent h (by simp [hst]) hp (fun _ => hown) hrec _ now
  | peerDeposit => exact learnDeposit_consistent h (orKeepUnit_eq_ok.1 hs)
  | accepted hh | rejected hh => exact judged_consistent h hc hh _ now
  | produced ht hh hrec =>
    have hround : s.Awaits (.signature _) := h.awaits (honours_iff.1 hh).1 ht
    exact roundRecorded_consistent h.idle hround.1 rfl hrec _ now
  | received hp _ hround _ hrec => exact roundRecorded_consistent h hround hp hrec _ now
  | committed => exact completeCommit_consistent h hc (orKeepUnit_eq_ok.1 hs)
  | reclaimable => exact markReclaimable_consistent h (orKeepUnit_eq_ok.1 hs)
  | reset => exact cleared_consistent _ _ _
  | miscounted | forced =>
    rw [forceReset_eq]
    exact cleared_consistent _ _ _
  | unfit | returned => exact h.idle
  | flagged => exact h.bookkept _ _ _ _
  | peerSet => exact setPeer_consistent h (orKeepUnit_eq_ok.1 hs)

theorem perform_consistent (h : Consistent s) (now : UInt64) (c : Call) (hc : c.IsMatched) :
    Consistent (s.perform now c).2 :=
  h.performed hc rfl

theorem Reachable.consistent (h : Reachable s) : Consistent s := by
  induction h with
  | fresh id fees now => exact fresh_consistent id fees now
  | perform _ now c hc ih => exact perform_consistent ih now c hc

/-! ### What a session shows -/

/-- The status of a session and its data, in terms of what the session shows. -/
structure Agrees (s : Session) : Prop where
  role : s.status = .notBegun ↔ s.role = none
  blank : s.status = .notBegun → s.schedule = .empty ∧ s.escrow = none ∧
    s.record.candidate = none ∧
    ∀ r, s.parties.address r = none ∧ s.parties.key r = none ∧ s.record.deposit r = none
  schedule : .reserved ≤ s.status → s.schedule.isEmpty = false
  /-- Address and key come together. -/
  paired : ∀ r, (s.parties.address r).isSome ↔ (s.parties.key r).isSome
  reserved : s.status = .reserved → ∀ own, s.role = some own → s.parties.key own = none
  initData : s.status = .initData → (∀ own, s.role = some own → (s.parties.key own).isSome) ∧
    ¬∀ r, (s.parties.key r).isSome
  keys : .pubKey ≤ s.status → ∀ r, (s.parties.key r).isSome
  escrow : s.escrow.isSome ↔ .multisigAddr ≤ s.status
  ownDeposit : ∀ own, s.role = some own → (s.record.deposit own).isSome →
    .multisigAddr ≤ s.status
  deposits : (∀ r, (s.record.deposit r).isSome) ↔ .depositsObserved ≤ s.status
  /-- No output is the deposit of two roles. -/
  outPoints : ∀ r q d d', s.record.deposit r = some d → s.record.deposit q = some d' →
    d.outPoint = d'.outPoint → r = q
  reclaimable : ∀ r, s.record.reclaimable.get r = true → (s.record.deposit r).isSome
  candidate : s.record.candidate.isSome ↔ .distTxRound0 ≤ s.status
  signedCount : s.record.signedCount = s.status.signedCount
  failure : s.escrowFailure.isSome → s.status = .depositsObserved
  pending : ∀ t, s.pending = some t → s.Awaits t

theorem Reachable.status_agrees_with_data (h : Reachable s) : Agrees s := by
  have hc := h.consistent
  have hkey : ∀ own, s.role = some own → ((s.parties.key own).isSome ↔ .initData ≤ s.status) :=
    hc.parties.ownKey
  exact {
    role := hc.parties.role_iff.symm
    blank := fun hst => by
      obtain ⟨hschedule, -, hparties, hrecord, -⟩ := hc.blank hst
      have hescrow : s.escrow = none := by
        have he := hc.escrow
        rw [hst] at he
        exact Option.not_isSome_iff_eq_none.1 fun h => absurd (he.1 h) (by decide)
      rw [hparties, hrecord]
      exact ⟨hschedule, hescrow, rfl, fun r => ⟨by simp, by simp, by simp⟩⟩
    schedule := fun hle => hc.schedule fun hst => by
      rw [hst] at hle
      exact absurd hle (by decide)
    paired := fun r => by rw [hc.parties.paired r]
    reserved := fun hst own ho => by
      refine Option.not_isSome_iff_eq_none.1 fun hk => ?_
      have hle := (hkey own ho).1 hk
      rw [hst] at hle
      exact absurd hle (by decide)
    initData := fun hst => by
      refine ⟨fun own ho => (hkey own ho).2 (by rw [hst]; decide), fun hall => ?_⟩
      have hle := hc.keysSettled hall
      rw [hst] at hle
      exact absurd hle (by decide)
    keys := hc.parties.allKeys
    escrow := hc.escrow
    ownDeposit := hc.record.ownDeposit
    deposits := ⟨hc.depositsSettled, hc.record.allDeposits⟩
    outPoints := hc.record.outPoints
    reclaimable := hc.record.reclaimable
    candidate := hc.record.candidate
    signedCount := hc.record.signedCount
    failure := hc.failure
    pending := hc.pending }

/-- A Sender that hears of the Mixer's deposit before it has set its own key. -/
theorem status_agrees_with_early_deposit :
    let schedule : Schedule := ⟨[⟨⟨"payee"⟩, ⟨100000⟩⟩]⟩
    let deposit : Deposit := ⟨⟨.replicate 32 1⟩, 0, ⟨[]⟩⟩
    let begun := ((fresh ⟨.replicate 16 7⟩ .standard 0).perform 1
      (.beginAsSender schedule .none ⟨1⟩ ⟨2⟩)).2
    let s := (begun.perform 2 (.learnDeposit .mixer deposit)).2
    s.status = .reserved ∧ s.record.deposit .mixer = some deposit ∧ Agrees s :=
  ⟨rfl, rfl, Reachable.status_agrees_with_data
    (((Reachable.fresh _ _ _).perform _ _ (by trivial)).perform _ _ (by trivial))⟩

end Session

end EscrowMix
