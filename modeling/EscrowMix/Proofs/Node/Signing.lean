import EscrowMix.Proofs.Node.Verification

/-!
A node signs what it verified. When its wallet is asked to sign a distribution, the wallet has just
confirmed that this distribution spends the deposits of the session to the outputs that the terms
fix, and the ledger has confirmed these deposits earlier in the same session.
-/

namespace EscrowMix

open Node (Command Request Wait Claims)

/-- The command of a job and the question that it waits with. -/
def Process.question? (w : Process) (i : Nat) : Option (Command × Request) := do
  let j ← w.jobs[i]?
  return (j.command, ← j.rest.question?)

theorem Process.question?_eq_some {w : Process} {i : Nat} {c : Command} {q : Request}
    (h : w.question? i = some (c, q)) :
    ∃ j, w.jobs[i]? = some j ∧ j.command = c ∧ j.rest.question? = some q := by
  simp only [question?, bind, Option.bind_eq_some_iff, pure, Option.some.injEq] at h
  obtain ⟨j, hj, q', hq, rfl, rfl⟩ := h
  exact ⟨j, hj, rfl, hq⟩

/-! ### Questions about a signature -/

/-- Only a distribution that was confirmed to match is signed. -/
theorem SigningPlan.after_run {plan : SigningPlan} {log : List Wallet.interface.Exchange}
    {rest : Program Wallet.interface (Except Error (Bytes × UInt8))} {c : Bytes} {k : PublicKey}
    (h : plan.run.run.After log rest) (hq : rest.question? = some (.sign c k)) :
    ∃ inputs outputs, plan = .sign c k inputs outputs ∧
      log = [⟨.verify c inputs outputs, (.ok true : Except Wallet.Error Bool)⟩] := by
  cases plan with
  | build inputs outputs constraints =>
    cases h with
    | refl => cases hq
    | @ask _ _ a _ _ h =>
      rcases a with e | built
      · cases h
        cases hq
      · cases h
        cases hq
  | sign candidate key inputs outputs =>
    cases h with
    | refl => cases hq
    | @ask _ _ a _ _ h =>
      rcases a with e | isMatch
      · cases h
        cases hq
      · cases isMatch with
        | false =>
          cases h
          cases hq
        | true =>
          cases h with
          | refl =>
            cases hq
            exact ⟨inputs, outputs, rfl, rfl⟩
          | ask h =>
            cases h
            cases hq

theorem Wallet.after_ask {q q' : Wallet.Request} {log : List Wallet.interface.Exchange}
    {rest : Program Wallet.interface (Except EscrowMix.Error q.Value)}
    (h : (Wallet.ask q).run.After log rest) (hq : rest.question? = some q') : q' = q := by
  cases h with
  | refl =>
    cases hq
    rfl
  | ask h =>
    cases h
    cases hq

/-- It is the own turn to sign the recorded distribution with the own key: the Mixer signs first,
then the Guarantor. The distribution should spend the three deposits in order, to the outputs that
the terms fix. -/
structure Session.Signs (s : Session) (c : Bytes) (k : PublicKey) (inputs : List Deposit)
    (outputs : List Payout) : Prop where
  turn : (s.role = some .mixer ∧ s.status = .distTxRound0) ∨
    (s.role = some .guarantor ∧ s.status = .distTxRound1)
  candidate : s.record.candidate = some c
  key : ∃ own, s.role = some own ∧ s.parties.key own = some k
  inputs : ∃ deposit : Role → Deposit, (∀ r, s.record.deposit r = some (deposit r)) ∧
    inputs = Role.all.map deposit
  outputs : s.fees.distributionOutputs s.schedule (s.parties.address .mixer)
    (s.parties.address .guarantor) = .ok outputs

/-- The rounds after the first are the Mixer's and the Guarantor's. -/
theorem turn_of_round {st : Status} {round : UInt8} {own : Role}
    (h : st.expectedRound? = some round) (h₀ : round ≠ 0) (ho : Role.forRound? round = some own) :
    (own = .mixer ∧ st = .distTxRound0) ∨ (own = .guarantor ∧ st = .distTxRound1) := by
  cases st <;> cases h
  · exact absurd rfl h₀
  · cases ho
    exact .inl ⟨rfl, rfl⟩
  · cases ho
    exact .inr ⟨rfl, rfl⟩

theorem Session.claimSignature_signs {s s' : Session} {ticket : Ticket} {c : Bytes} {k : PublicKey}
    {inputs : List Deposit} {outputs : List Payout}
    (h : s.claimSignature = .ok ((ticket, .sign c k inputs outputs), s')) :
    s.Signs c k inputs outputs ∧ s.IsVerified := by
  obtain ⟨-, own, round, inputs', outputs', hown, hround, hsigner, hin, hout, hplan, -, -⟩ :=
    claimSignature_ok h
  refine ⟨?_, isVerified_of_round hround⟩
  rcases signingPlan_eq_ok.1 hplan with ⟨-, he⟩ | ⟨h₀, candidate, key, hc, hk, he⟩
  · cases he
  · cases he
    refine ⟨?_, hc, ⟨own, hown, hk⟩, ?_, mapError_eq_ok.1 hout⟩
    · rcases turn_of_round hround h₀ hsigner with ⟨rfl, hst⟩ | ⟨rfl, hst⟩
      · exact .inl ⟨hown, hst⟩
      · exact .inr ⟨hown, hst⟩
    · obtain ⟨deposit, hd, rfl⟩ := mapM_roles_eq_ok.1 hin
      exact ⟨deposit, fun r => distributionInput_eq_ok.1 (hd r), rfl⟩

namespace Node

variable {α β : Type}

theorem askWallet_question {rest : Wallet.Asking α} {f : Except Error α → Running β}
    {q : Wallet.Request} (hr : ∃ q next, rest.run = .ask q next)
    (hq : (askWallet rest >>= f).run.question? = some (.wallet q)) : rest.run.question? = some q := by
  obtain ⟨q', next, hr⟩ := hr
  obtain rfl : rest = .mk (.ask q' next) := hr
  cases hq
  rfl

theorem askLedger_question {rest : Ledger.Asking α} {f : Except Error α → Running β}
    {q : Wallet.Request} (hr : ∃ q next, rest.run = .ask q next) :
    (askLedger rest >>= f).run.question? ≠ some (.wallet q) := by
  obtain ⟨q', next, hr⟩ := hr
  obtain rfl : rest = .mk (.ask q' next) := hr
  nofun

/-- Whoever waits for a signature claimed a round of the distribution. -/
theorem Claims.signs {n n₁ : Node} {cmd : Command} {w₀ w : Wait} {log : List interface.Exchange}
    {c : Bytes} {k : PublicKey} (hc : Claims n cmd n₁ w₀) (hw : w₀.After log w) (ho : w.IsOpen)
    (hq : w.program.question? = some (.wallet (.sign c k))) :
    ∃ id slot inputs outputs, cmd = .contributeSignature id ∧
      n.directory.active = some (id, slot) ∧
      (n.directory.session slot).Signs c k inputs outputs ∧
      (n.directory.session slot).IsVerified ∧
      log = [⟨.wallet (.verify c inputs outputs), (.ok true : Except Wallet.Error Bool)⟩] := by
  cases hw with
  | derive h =>
    cases hc with
    | derive => cases Wallet.after_ask h (askWallet_question ho hq)
  | verify h => exact absurd hq (askLedger_question ho)
  | sign h =>
    cases hc with
    | sign ha hs =>
      obtain ⟨inputs, outputs, rfl, rfl⟩ := SigningPlan.after_run h (askWallet_question ho hq)
      obtain ⟨hsigns, hv⟩ := Session.claimSignature_signs hs
      exact ⟨_, _, inputs, outputs, rfl, ha, hsigns, hv, rfl⟩
  | commit h =>
    cases hc with
    | commit => cases Wallet.after_ask h (askWallet_question ho hq)
  | follow h =>
    cases hc with
    | follow => cases Wallet.after_ask h (askWallet_question ho hq)

end Node

/-- On every way of a node, whenever its wallet is asked to sign a distribution, the question comes
from a command that claimed the signature when it was this node's turn to sign the recorded
distribution with its own key. Since the claim the command asked one thing, and the wallet answered
that this distribution spends the deposits of the session to the outputs that its terms fix. Before
the claim the ledger had confirmed just these deposits, in the same session. -/
theorem Path.signs_only_verified_distribution {config : Config} {ms : List Moment} {w : Process}
    {i : Nat} {cmd : Command} {c : Bytes} {k : PublicKey} (h : Path (.start config) ms w)
    (hq : w.question? i = some (cmd, .wallet (.sign c k))) :
    ∃ id slot past claim during inputs outputs, ms = past ++ claim :: during ∧
      cmd = .contributeSignature id ∧ claim.move = .start cmd ∧ claim.job = i ∧
      claim.before.active = some (id, slot) ∧
      (claim.before.session slot).Signs c k inputs outputs ∧
      Verified past slot (claim.before.session slot) ∧
      conversation i during =
        [⟨.wallet (.verify c inputs outputs), (.ok true : Except Wallet.Error Bool)⟩] := by
  obtain ⟨⟨cmd, rest⟩, hj, rfl, hrest⟩ := Process.question?_eq_some hq
  rcases h.jobsSound i _ hj with ⟨r, hr⟩ | ⟨wait, ho, rfl, hu⟩
  · obtain rfl : rest = .done r := hr
    cases hrest
  · obtain @⟨past, during, claim, n₁, w₀, wait, rfl, hmove, hi, hc, hw⟩ := hu
    obtain ⟨id, slot, inputs, outputs, hcmd, ha, hsigns, hv, hlog⟩ := hc.signs hw ho hrest
    exact ⟨id, slot, past, claim, during, inputs, outputs, rfl, hcmd, hmove,
      (Moment.job_of_start hmove).trans hi, ha, hsigns, h.split.1.verified hv, hlog⟩

/-! ### A Mixer that signs -/

namespace SigningMixer

def sessionId : SessionId := ⟨.replicate 16 7⟩

/-- The keys of the Sender, the Mixer and the Guarantor. -/
def senderKey : PublicKey := ⟨2 :: (.replicate 31 0 ++ [1]), by decide +kernel⟩
def mixerKey : PublicKey := ⟨2 :: (.replicate 31 0 ++ [2]), by decide +kernel⟩
def guarantorKey : PublicKey := ⟨2 :: (.replicate 31 0 ++ [3]), by decide +kernel⟩

/-- The first output of a transaction. -/
def deposit (n : UInt8) : Deposit := ⟨⟨.replicate 32 n⟩, 0, ⟨[]⟩⟩

/-- The wallet derives the escrow and finds that every distribution matches; the ledger finds every
deposit confirmed. -/
def circumstances : Circumstances where
  surroundings := ⟨5, fun _ => true⟩
  drawn := sessionId
  wallet
    | .deriveMultisig .. => .ok ⟨⟨"escrow"⟩, ⟨[]⟩⟩
    | .verify .. => .ok true
    | _ => .error .locked
  ledger
    | .confirmations _ => .ok (1 : UInt32)
    | .output _ => .ok (some ⟨⟨1000000⟩, ⟨[]⟩⟩)
    | .isConfirmedPaying .. => .ok true

/-- An invited Mixer goes through the whole setup, checks the deposits, receives the distribution and
contributes its signature, up to the question to its wallet. -/
def turns : List Turn :=
  [.tell (.onInvite ⟨1⟩ sessionId .mixer ⟨[⟨⟨"payee"⟩, ⟨100000⟩⟩]⟩ Config.standard.feePolicy .none),
    .tell (.attachPeer sessionId .guarantor ⟨3⟩),
    .tell (.setOwnKey sessionId ⟨"mixer"⟩ mixerKey),
    .tell (.onAddressAndKey ⟨1⟩ sessionId .sender ⟨"sender"⟩ senderKey),
    .tell (.onAddressAndKey ⟨3⟩ sessionId .guarantor ⟨"guarantor"⟩ guarantorKey),
    .tell (.deriveMultisig sessionId), .answer 5,
    .tell (.onDepositNotice sessionId .sender (deposit 1)),
    .tell (.onDepositNotice sessionId .guarantor (deposit 3)),
    .tell (.recordOwnDeposit sessionId (deposit 2)),
    .tell (.verifyDeposits sessionId)] ++ .replicate 9 (.answer 9) ++
  [.tell (.onSignatureRound sessionId 0 [1]), .tell (.contributeSignature sessionId), .answer 11]

/-- What happens then. -/
def moments : List Moment := (Process.start .standard).play circumstances turns

end SigningMixer

open SigningMixer in
theorem Path.mixer_signs_verified_distribution :
    ((Process.start .standard).afterAll moments).question? 11 =
        some (.contributeSignature sessionId, .wallet (.sign [1] mixerKey)) ∧
      ∃ slot past claim during inputs outputs, moments = past ++ claim :: during ∧
        claim.move = .start (.contributeSignature sessionId) ∧
        (claim.before.session slot).Signs [1] mixerKey inputs outputs ∧
        Verified past slot (claim.before.session slot) := by
  have hq : ((Process.start .standard).afterAll moments).question? 11 =
      some (.contributeSignature sessionId, .wallet (.sign [1] mixerKey)) := by decide +kernel
  have h : Path (.start .standard) moments ((Process.start .standard).afterAll moments) :=
    Process.play_path ..
  obtain ⟨id, slot, past, claim, during, inputs, outputs, hms, -, hmove, -, -, hsigns, hv, -⟩ :=
    h.signs_only_verified_distribution hq
  exact ⟨hq, slot, past, claim, during, inputs, outputs, hms, hmove, hsigns, hv⟩

end EscrowMix
