import EscrowMix.Proofs.Session.Lifecycle
import EscrowMix.Proofs.Session.Progress

/-!
The distribution rounds that a session takes. Round by round, from 0 to 2, each replaces the
distribution of the one before; the own round comes from the own wallet, the two others from the
peers, and nothing else touches the distribution.

    rounds taken   statuses                        next round
    0              up to DepositsVerified          0, the Sender's
    1              DistTxRound0                    1, the Mixer's
    2              DistTxRound1                    2, the Guarantor's
    3              DistTxComplete and Complete     none
-/

namespace EscrowMix

/-- All rounds, in order. -/
def signingRounds : List UInt8 := Role.all.map Role.signingRound

/-- The number of rounds whose distribution the record has held. -/
def Escrow.Record.roundsTaken (r : Escrow.Record) : Nat :=
  if r.candidate.isSome then r.signedCount.toNat + 1 else 0

@[simp] theorem Escrow.Record.proposed_roundsTaken (r : Escrow.Record) (tx : Bytes)
    (count : UInt8) : (r.proposed tx count).roundsTaken = count.toNat + 1 := rfl

namespace Session

variable {s s' s'' : Session} {now : UInt64} {c : Call}

/-- A distribution round that a session took. -/
structure Round where
  round : UInt8
  /-- The distribution of the round. -/
  tx : Bytes
  /-- It came from the own wallet, and not from a peer. -/
  isOwn : Bool
deriving DecidableEq

/-- The round that a call brought, if the session took it. -/
def Call.round? : (c : Call) → Except Error c.Answer → Option Round
  | .completeSignature _ tx _, .ok round => some ⟨round, tx, true⟩
  | .learnRound round tx, .ok _ => some ⟨round, tx, false⟩
  | _, _ => none

/-- The rounds that a session takes in calls. -/
def rounds : Session → Script → List Round
  | _, [] => []
  | s, (now, c) :: cs =>
    (c.round? (s.perform now c).1).toList ++ rounds (s.perform now c).2 cs

/-! ### Calls that bring no round -/

/-- The constraints and the distribution are the same. -/
structure Keeps (s s' : Session) : Prop where
  constraints : s'.constraints = s.constraints
  candidate : s'.record.candidate = s.record.candidate
  signedCount : s'.record.signedCount = s.record.signedCount

/-- A call ends with the status catching up, and a new epoch. -/
theorem Keeps.committed (h : Keeps s s') (now : UInt64) :
    Keeps s ((s'.promoted now).touched now) := by
  rw [promoted_eq]
  exact ⟨h.constraints, h.candidate, h.signedCount⟩

theorem keyed_keeps (s : Session) (role : Role) (a : Address) (k : PublicKey) (now : UInt64) :
    Keeps s (s.keyed role a k now) := by
  unfold keyed
  dsimp only
  split <;> exact ⟨rfl, rfl, rfl⟩

theorem deposited_keeps {role : Role} {d : Deposit} {record : Escrow.Record}
    (h : s.record.recordDeposit role d = .ok record) (event : String) (now : UInt64) :
    Keeps s (s.deposited record event now) := by
  obtain ⟨-, -, rfl⟩ := Escrow.Record.recordDeposit_eq_ok.1 h
  refine Keeps.committed ?_ now
  exact ⟨rfl, rfl, rfl⟩

/-- Once a session has begun, only what clears it and the rounds touch its constraints and its
distribution. -/
theorem perform_keeps (hst : s.status ≠ .notBegun) {answer : Except Error c.Answer}
    (hs : s.perform now c = (answer, s')) (hc : c.clears answer = false)
    (hr : c.round? answer = none) : Keeps s s' := by
  cases perform_outcome hs with
  | begunAsSender _ hnone | begunInvited _ hnone => exact absurd hnone hst
  | ownKey => exact (keyed_keeps s _ _ _ now).committed now
  | peerKey | multisig =>
    refine Keeps.committed ?_ now
    exact ⟨rfl, rfl, rfl⟩
  | ownDeposit _ _ _ hrec | peerDeposit _ _ _ _ hrec => exact deposited_keeps hrec _ now
  | produced | received => cases hr
  | miscounted | reset | forced => cases hc
  | _ => exact ⟨rfl, rfl, rfl⟩

/-! ### Calls that bring a round -/

/-- A session takes the round that comes next, and holds its distribution. The round is its own if
it is its turn. -/
structure TakesRound (s : Session) (r : Round) (s' : Session) : Prop where
  expected : s.expectedRound? = some r.round
  turn : r.isOwn = true ↔ Role.forRound? r.round = s.role
  role : s'.role = s.role
  constraints : s'.constraints = s.constraints
  record : s'.record = s.record.proposed r.tx r.round

theorem perform_takes (h : Consistent s) {answer : Except Error c.Answer}
    (hs : s.perform now c = (answer, s')) {r : Round} (hr : c.round? answer = some r) :
    TakesRound s r s' := by
  cases perform_outcome hs with
  | refused => cases c <;> cases hr
  | produced ht hh hrec =>
    cases hr
    have hround : s.Awaits (.signature _) := h.awaits (honours_iff.1 hh).1 ht
    obtain ⟨-, rfl⟩ := Escrow.Record.setCandidate_eq_ok.1 hrec
    exact ⟨hround.1, iff_of_true rfl hround.2, rfl, rfl, rfl⟩
  | received _ ho hround hturn hrec =>
    cases hr
    obtain ⟨-, rfl⟩ := Escrow.Record.setCandidate_eq_ok.1 hrec
    exact ⟨hround, iff_of_false nofun (ho ▸ hturn), rfl, rfl, rfl⟩
  | _ => cases hr

theorem Keeps.roundsTaken (h : Keeps s s') : s'.record.roundsTaken = s.record.roundsTaken := by
  rw [Escrow.Record.roundsTaken, h.candidate, h.signedCount, Escrow.Record.roundsTaken]

/-- The status knows how many rounds the record has taken. -/
theorem Consistent.roundsTaken (h : Consistent s) {round : UInt8}
    (hround : s.expectedRound? = some round) : s.record.roundsTaken = round.toNat := by
  have hcandidate := h.record.candidate
  have hcount := h.record.signedCount
  unfold Escrow.Record.roundsTaken
  unfold expectedRound? at hround
  generalize s.status = st at hround hcandidate hcount
  cases st with
  | depositsVerified =>
    cases hround
    rw [if_neg fun hsome => absurd (hcandidate.1 hsome) (by decide)]
    rfl
  | distTxRound0 | distTxRound1 =>
    cases hround
    rw [if_pos (hcandidate.2 (by decide)), hcount]
    rfl
  | _ => cases hround

/-- The round that comes next is one more than a record holds, or the first one. -/
theorem Consistent.checkCandidate (h : Consistent s) {round : UInt8}
    (hround : s.expectedRound? = some round) : s.record.checkCandidate round = .ok () := by
  have hcandidate := h.record.candidate
  have hcount := h.record.signedCount
  unfold Escrow.Record.checkCandidate
  unfold expectedRound? at hround
  generalize s.status = st at hround hcandidate hcount
  rw [hcount]
  cases st with
  | depositsVerified =>
    cases hround
    have hnone : ¬s.record.candidate.isSome := fun hsome => absurd (hcandidate.1 hsome) (by decide)
    simp [hnone, Status.signedCount, Escrow.signatureThreshold]
  | distTxRound0 | distTxRound1 =>
    cases hround
    rfl
  | _ => cases hround

/-! ### Runs -/

theorem signingRounds_of_expected {round : UInt8} (h : s.expectedRound? = some round) :
    signingRounds[round.toNat]? = some round := by
  unfold expectedRound? at h
  generalize s.status = st at h
  cases st <;> cases h <;> rfl

/-- The rounds that were taken before, together with those that a call brings, are the ones taken
after it. -/
theorem take_roundsTaken (h : Consistent s) (hst : s.status ≠ .notBegun)
    {answer : Except Error c.Answer} (hs : s.perform now c = (answer, s'))
    (hc : c.clears answer = false) :
    signingRounds.take s.record.roundsTaken ++ (c.round? answer).toList.map (·.round) =
      signingRounds.take s'.record.roundsTaken := by
  cases hr : c.round? answer with
  | none =>
    rw [(perform_keeps hst hs hc hr).roundsTaken]
    simp
  | some r =>
    have ht := perform_takes h hs hr
    rw [ht.record, Escrow.Record.proposed_roundsTaken, h.roundsTaken ht.expected, List.take_add_one,
      signingRounds_of_expected ht.expected]
    rfl

/-- Of the rounds that a session takes in calls, each is its own if it is its turn, and the last one
is what its record holds. -/
structure Cosigns (s : Session) (cs : Script) : Prop where
  order : signingRounds.take s.record.roundsTaken ++ (s.rounds cs).map (·.round) =
    signingRounds.take (s.after cs).record.roundsTaken
  turn : ∀ r ∈ s.rounds cs, r.isOwn = true ↔ Role.forRound? r.round = s.role
  candidate : (s.after cs).record.candidate =
    ((s.rounds cs).getLast?.map (·.tx)).or s.record.candidate
  signedCount : (s.after cs).record.signedCount =
    ((s.rounds cs).getLast?.map (·.round)).getD s.record.signedCount

theorem cosigns_nil (s : Session) : Cosigns s [] := ⟨List.append_nil _, nofun, rfl, rfl⟩

theorem Ascends.begun (h : Ascends s s') (hst : s.status ≠ .notBegun) : s'.status ≠ .notBegun := by
  intro e
  have hle := h.status
  rw [e] at hle
  exact hst (Status.rank_inj (Nat.le_zero.1 hle))

/-- What a call brings comes before what is taken after it. -/
theorem Cosigns.cons {cs : Script} (h : Consistent s) (hst : s.status ≠ .notBegun)
    (hc : c.clears (s.perform now c).1 = false) (hrole : (s.perform now c).2.role = s.role)
    (hrest : Cosigns (s.perform now c).2 cs) : Cosigns s ((now, c) :: cs) := by
  have hafter : s.after ((now, c) :: cs) = (s.perform now c).2.after cs := rfl
  have hrounds : s.rounds ((now, c) :: cs) =
    (c.round? (s.perform now c).1).toList ++ (s.perform now c).2.rounds cs := rfl
  have hstep : s.perform now c = ((s.perform now c).1, (s.perform now c).2) := rfl
  have horder := take_roundsTaken h hst hstep hc
  have hlast : (s.rounds ((now, c) :: cs)).getLast? =
      ((s.perform now c).2.rounds cs).getLast?.or (c.round? (s.perform now c).1) := by
    rw [hrounds, List.getLast?_append]
    cases c.round? (s.perform now c).1 <;> rfl
  have htaken : (s.perform now c).2.record.candidate =
        ((c.round? (s.perform now c).1).map (·.tx)).or s.record.candidate ∧
      (s.perform now c).2.record.signedCount =
        ((c.round? (s.perform now c).1).map (·.round)).getD s.record.signedCount := by
    cases hr : c.round? (s.perform now c).1 with
    | none =>
      have hkeeps := perform_keeps hst hstep hc hr
      exact ⟨hkeeps.candidate, hkeeps.signedCount⟩
    | some r =>
      have htakes := perform_takes h hstep hr
      rw [htakes.record]
      exact ⟨rfl, rfl⟩
  refine ⟨?_, fun r hr => ?_, ?_, ?_⟩
  · rw [hafter, hrounds, List.map_append, ← List.append_assoc, horder]
    exact hrest.order
  · rw [hrounds] at hr
    rcases List.mem_append.1 hr with hr | hr
    · exact (perform_takes h hstep (Option.mem_toList.1 hr)).turn
    · rw [← hrole]
      exact hrest.turn r hr
  · rw [hafter, hlast, hrest.candidate, htaken.1]
    cases ((s.perform now c).2.rounds cs).getLast? <;> rfl
  · rw [hafter, hlast, hrest.signedCount, htaken.2]
    cases ((s.perform now c).2.rounds cs).getLast? <;> rfl

theorem Reachable.cosigns (h : Reachable s) (hst : s.status ≠ .notBegun) {cs : Script}
    (hm : ∀ e ∈ cs, e.2.IsMatched) (hc : s.wasCleared cs = false) : Cosigns s cs := by
  induction cs generalizing s with
  | nil => exact cosigns_nil s
  | cons e cs ih =>
    obtain ⟨now, c⟩ := e
    obtain ⟨hhead, hrest⟩ := Bool.or_eq_false_iff.1 hc
    have hmatched : c.IsMatched := hm (now, c) List.mem_cons_self
    have hup := perform_progress h.consistent hmatched rfl hhead
    have hst' := hup.begun hst
    have hrole := ((perform_evolves h.consistent hmatched rfl).grows hst').role hst
    have hmatched' : ∀ e ∈ cs, e.2.IsMatched := fun e' he' => hm e' (List.mem_cons_of_mem _ he')
    exact .cons h.consistent hst hhead hrole (ih (h.perform now c hmatched) hst' hmatched' hrest)

/-! ### Rounds in order -/

/-- A round of a peer is taken when it comes next, is another role's and is not empty. -/
theorem learnRound_isOk_iff (h : Consistent s) (hp : s.pending = none) (now : UInt64)
    {round : UInt8} {tx : Bytes} :
    (∃ s', s.learnRound round tx now = .ok s') ↔
      s.expectedRound? = some round ∧ Role.forRound? round ≠ s.role ∧ tx ≠ [] := by
  constructor
  · rintro ⟨s', hs⟩
    obtain ⟨-, own, record, ho, hround, hsigner, hne, hrec, -⟩ := learnRound_ok hs
    exact ⟨hround, ho ▸ hsigner, List.isEmpty_eq_false_iff.1 hne⟩
  · rintro ⟨hround, hsigner, hne⟩
    have hst : s.status ≠ .notBegun := fun e => by
      rw [expectedRound?, e] at hround
      cases hround
    obtain ⟨own, ho⟩ := h.exists_role hst
    have hown : s.localRole = .ok own := localRole_eq_ok.2 ho
    have hawaited : s.awaitedRound = .ok round := awaitedRound_eq_ok.2 (.inr hround)
    have hidle : s.ensureIdle = .ok () := ensureIdle_eq_ok.2 hp
    have hrec : s.record.setCandidate tx round = .ok (s.record.proposed tx round) :=
      Escrow.Record.setCandidate_eq_ok.2 ⟨h.checkCandidate hround, rfl⟩
    have hempty : tx.isEmpty = false := List.isEmpty_eq_false_iff.2 hne
    refine ⟨s.roundRecorded (s.record.proposed tx round) round "received" now, ?_⟩
    rw [ho] at hsigner
    rw [learnRound, bind_of_ok hidle, bind_of_ok hown, bind_of_ok hawaited,
      if_neg (UInt8.lt_irrefl round), if_neg (UInt8.lt_irrefl round), if_neg hsigner,
      if_neg (by simp [hempty]), bind_of_ok (mapError_eq_ok.2 hrec)]
    rfl

theorem forRound?_eq_some {round : UInt8} {own : Role} :
    Role.forRound? round = some own ↔ round = own.signingRound := by
  refine ⟨fun h => ?_, fun h => by rw [h, Role.forRound?_signingRound]⟩
  have hindex : round.toNat = own.index := by
    unfold Role.forRound? at h
    generalize round.toNat = n at h
    match n with
    | 0 | 1 | 2 =>
      cases h
      rfl
    | n + 3 => cases h
  rw [Role.signingRound, ← hindex, UInt8.ofNat_toNat]

/-- What the rounds are that a session takes in calls from its beginning on. -/
structure InOrder (s : Session) (cs : Script) : Prop where
  /-- They are 0, 1 and 2, or the first of these. -/
  order : (s.rounds cs).map (·.round) <+: [0, 1, 2]
  /-- The own one comes from the own wallet, all others from peers. -/
  turn : ∃ own, s.role = some own ∧
    ∀ r ∈ s.rounds cs, r.isOwn = true ↔ r.round = own.signingRound
  /-- The last one, and nothing but a round, is what the record holds. -/
  candidate : (s.after cs).record.candidate = (s.rounds cs).getLast?.map (·.tx)
  signedCount : (s.after cs).record.signedCount = ((s.rounds cs).getLast?.map (·.round)).getD 0

/-- From its beginning until it is cleared, a session takes the rounds one after the other, its own
one from the own wallet and the others from the peers, and it holds the last one. At any time
without an outstanding transition a peer's round is taken iff it is the next one, another role's,
and not empty. -/
theorem Reachable.rounds_in_order (h : Reachable s) :
    (∀ now c, c.begins = true → (s.perform now c).1.isOk = true → ∀ cs : Script,
      (∀ e ∈ cs, e.2.IsMatched) → (s.perform now c).2.wasCleared cs = false →
      InOrder (s.perform now c).2 cs) ∧
    (s.pending = none → ∀ now round tx,
      (s.perform now (.learnRound round tx)).1 = .ok () ↔
        s.expectedRound? = some round ∧ Role.forRound? round ≠ s.role ∧ tx ≠ []) := by
  refine ⟨fun now c hb hok cs hm hc => ?_, fun hp now round tx => ?_⟩
  · obtain ⟨a, ha⟩ := exists_eq_ok hok
    have hstep : s.perform now c = (.ok a, (s.perform now c).2) := Prod.ext ha rfl
    have hmatched : c.IsMatched := by cases c <;> trivial
    have hreach := h.perform now c hmatched
    have hst := reserved_of_begins hb hstep
    generalize (s.perform now c).2 = s₁ at hc hreach hst
    have hbegun : s₁.status ≠ .notBegun := by rw [hst]; decide
    have hsigns := hreach.cosigns hbegun hm hc
    obtain ⟨own, ho⟩ := hreach.consistent.exists_role hbegun
    -- a session that has just begun has no distribution
    have hnone : s₁.record.candidate = none := Option.not_isSome_iff_eq_none.1 fun hsome => by
      have hle := hreach.consistent.record.candidate.1 hsome
      rw [hst] at hle
      exact absurd hle (by decide)
    have hzero : s₁.record.signedCount = 0 := by
      rw [hreach.consistent.record.signedCount, hst]
      rfl
    have horder := hsigns.order
    rw [Escrow.Record.roundsTaken, hnone] at horder
    have hcandidate := hsigns.candidate
    rw [hnone, Option.or_none] at hcandidate
    have hcount := hsigns.signedCount
    rw [hzero] at hcount
    refine ⟨?_, ⟨own, ho, fun r hr => ?_⟩, hcandidate, hcount⟩
    · exact ⟨signingRounds.drop (s₁.after cs).record.roundsTaken, by
        rw [← List.nil_append ((s₁.rounds cs).map _)]
        exact (congrArg (· ++ _) horder).trans (List.take_append_drop ..)⟩
    · rw [hsigns.turn r hr, ho, forRound?_eq_some]
  · rw [← learnRound_isOk_iff h.consistent hp now]
    constructor
    · intro hok
      exact ⟨_, orKeepUnit_eq_ok.1 (Prod.ext hok rfl)⟩
    · rintro ⟨s', hs⟩
      exact congrArg Prod.fst (orKeepUnit_eq_ok.2 hs)

namespace Distributed

open Reclaimed Misused

/-- A Mixer is invited. -/
def invitation : Call := .beginInvited .mixer ⟨1⟩ ⟨[⟨⟨"payee"⟩, ⟨100000⟩⟩]⟩ .standard .none

def invited : Session := (start.perform 1 invitation).2

/-- It goes through the setup and the funding, up to the check of the deposits. -/
def verified : Script := setup.tail ++ (5, .claimMultisig) :: funding ++
  [(11, .completeVerification ⟨.verifyDeposits, 8⟩ .accepted)]

/-- The Sender builds the distribution, the Mixer and the Guarantor sign it. -/
def distribution : Script :=
  [(12, .learnRound 0 [0]), (13, .claimSignature),
    (14, .completeSignature ⟨.signature 1, 10⟩ [1] 1), (15, .learnRound 2 [2])]

theorem isMatched : ∀ e ∈ verified ++ distribution, e.2.IsMatched := by
  simp [verified, distribution, setup, funding, Call.IsMatched, ticket]

end Distributed

open Distributed in
theorem Reachable.rounds_in_order_of_mixer :
    InOrder invited (verified ++ distribution) ∧
      invited.rounds (verified ++ distribution) =
        [⟨0, [0], false⟩, ⟨1, [1], true⟩, ⟨2, [2], false⟩] ∧
      ((invited.after verified).perform 12 (.learnRound 0 [0])).1 = .ok () := by
  have hstart : Reachable Reclaimed.start := .fresh ..
  have hverified : Reachable (invited.after verified) :=
    (hstart.perform 1 invitation trivial).after fun e he =>
      isMatched e (List.mem_append_left _ he)
  exact ⟨hstart.rounds_in_order.1 1 invitation rfl rfl _ isMatched (by decide +kernel),
    by decide +kernel,
    (hverified.rounds_in_order.2 (by decide +kernel) 12 0 [0]).2 (by decide +kernel)⟩

end Session

end EscrowMix
