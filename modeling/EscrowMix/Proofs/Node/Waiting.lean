import EscrowMix.Proofs.Node.Segment
import EscrowMix.Proofs.Program

/-!
Commands that wait for a collaborator. A command that claimed a transition asks the wallet or the
ledger until it knows enough, and then completes the transition or gives the ticket back.
-/

namespace EscrowMix.Node

variable {n n' : Node} {ids : List SessionId}

/-! ### Waiting -/

/-- What was asked of the wallet and answered. -/
def walletExchange (x : Wallet.interface.Exchange) : interface.Exchange := ⟨.wallet x.1, x.2⟩

/-- What was asked of the ledger and answered. -/
def ledgerExchange (x : Ledger.interface.Exchange) : interface.Exchange := ⟨.ledger x.1, x.2⟩

theorem map_walletExchange (log : List Wallet.interface.Exchange) (q : Wallet.Request)
    (a : Except Wallet.Error q.Value) :
    (log ++ [(⟨q, a⟩ : Wallet.interface.Exchange)]).map walletExchange =
      log.map walletExchange ++ [(⟨.wallet q, a⟩ : interface.Exchange)] :=
  List.map_append

theorem map_ledgerExchange (log : List Ledger.interface.Exchange) (q : Ledger.Query)
    (a : Except Ledger.Error q.Value) :
    (log ++ [(⟨q, a⟩ : Ledger.interface.Exchange)]).map ledgerExchange =
      log.map ledgerExchange ++ [(⟨.ledger q, a⟩ : interface.Exchange)] :=
  List.map_append

/-- A command that waits for a collaborator: the slot of its session, the epoch of its claim, and
what it still asks. -/
inductive Wait where
  | derive (slot : Slot) (epoch : Nat) (rest : Wallet.Asking Multisig)
  | verify (slot : Slot) (epoch : Nat) (rest : Ledger.Asking Verdict)
  | sign (id : SessionId) (slot : Slot) (round : UInt8) (epoch : Nat) (targets : Targets)
      (rest : Wallet.Asking (Bytes × UInt8))
  | commit (id : SessionId) (slot : Slot) (epoch : Nat) (tx : Bytes) (rest : Wallet.Asking Unit)
  | follow (slot : Slot) (epoch : Nat) (tx : Bytes) (rest : Wallet.Asking Unit)

namespace Wait

/-- The slot of the session. -/
def slot : Wait → Slot
  | derive slot .. | verify slot .. | sign _ slot .. | commit _ slot .. | follow slot .. => slot

/-- The ticket of the claim. -/
def ticket : Wait → Ticket
  | derive _ epoch _ => ⟨.deriveMultisig, epoch⟩
  | verify _ epoch _ => ⟨.verifyDeposits, epoch⟩
  | sign _ _ round epoch .. => ⟨.signature round, epoch⟩
  | commit _ _ epoch .. | follow _ epoch .. => ⟨.commit, epoch⟩

/-- What is left of the command. -/
def program : Wait → Program interface (Except Error Reply)
  | derive slot epoch rest =>
    (askWallet rest >>= settleMultisig slot ⟨.deriveMultisig, epoch⟩).run
  | verify slot epoch rest =>
    (askLedger rest >>= settleVerification slot ⟨.verifyDeposits, epoch⟩).run
  | sign id slot round epoch targets rest =>
    (askWallet rest >>= settleSignature id slot ⟨.signature round, epoch⟩ targets).run
  | commit id slot epoch tx rest =>
    (askWallet rest >>= fun r => settleBroadcast slot ⟨.commit, epoch⟩ tx r >>=
      tellCommit id slot).run
  | follow slot epoch tx rest =>
    (askWallet rest >>= fun r => settleBroadcast slot ⟨.commit, epoch⟩ tx r >>=
      fun _ => pure (.messages [])).run

/-- Something is left to ask. -/
def IsOpen : Wait → Prop
  | derive _ _ rest => ∃ q next, rest.run = .ask q next
  | verify _ _ rest => ∃ q next, rest.run = .ask q next
  | sign _ _ _ _ _ rest => ∃ q next, rest.run = .ask q next
  | commit _ _ _ _ rest => ∃ q next, rest.run = .ask q next
  | follow _ _ _ rest => ∃ q next, rest.run = .ask q next

/-- An answer to the question that is asked. -/
inductive Answered : Wait → (q : Request) → q.Answer → Wait → Prop
  | derive {slot : Slot} {epoch : Nat} {q : Wallet.Request}
      {next : Except Wallet.Error q.Value → Wallet.Asking Multisig}
      (a : Except Wallet.Error q.Value) :
      Answered (.derive slot epoch (.mk (.ask q next))) (.wallet q) a (.derive slot epoch (next a))
  | verify {slot : Slot} {epoch : Nat} {q : Ledger.Query}
      {next : Except Ledger.Error q.Value → Ledger.Asking Verdict}
      (a : Except Ledger.Error q.Value) :
      Answered (.verify slot epoch (.mk (.ask q next))) (.ledger q) a (.verify slot epoch (next a))
  | sign {id : SessionId} {slot : Slot} {round : UInt8} {epoch : Nat} {targets : Targets}
      {q : Wallet.Request} {next : Except Wallet.Error q.Value → Wallet.Asking (Bytes × UInt8)}
      (a : Except Wallet.Error q.Value) :
      Answered (.sign id slot round epoch targets (.mk (.ask q next))) (.wallet q) a
        (.sign id slot round epoch targets (next a))
  | commit {id : SessionId} {slot : Slot} {epoch : Nat} {tx : Bytes} {q : Wallet.Request}
      {next : Except Wallet.Error q.Value → Wallet.Asking Unit}
      (a : Except Wallet.Error q.Value) :
      Answered (.commit id slot epoch tx (.mk (.ask q next))) (.wallet q) a
        (.commit id slot epoch tx (next a))
  | follow {slot : Slot} {epoch : Nat} {tx : Bytes} {q : Wallet.Request}
      {next : Except Wallet.Error q.Value → Wallet.Asking Unit}
      (a : Except Wallet.Error q.Value) :
      Answered (.follow slot epoch tx (.mk (.ask q next))) (.wallet q) a
        (.follow slot epoch tx (next a))

/-- The collaborator failed, and there is nothing left to ask. -/
inductive Failed : Wait → Error → Prop
  | derive {slot : Slot} {epoch : Nat} {e : Error} :
    Failed (.derive slot epoch (.mk (.done (.error e)))) e
  | verify {slot : Slot} {epoch : Nat} {e : Ledger.Error} :
    Failed (.verify slot epoch (.mk (.done (.error e)))) (.ledger e)
  | sign {id : SessionId} {slot : Slot} {round : UInt8} {epoch : Nat} {targets : Targets}
    {e : Error} : Failed (.sign id slot round epoch targets (.mk (.done (.error e)))) e
  | commit {id : SessionId} {slot : Slot} {epoch : Nat} {tx : Bytes} {e : Error} :
    Failed (.commit id slot epoch tx (.mk (.done (.error e)))) e
  | follow {slot : Slot} {epoch : Nat} {tx : Bytes} {e : Error} :
    Failed (.follow slot epoch tx (.mk (.done (.error e)))) e

/-- The wallet broadcast the transaction. -/
inductive Sent : Wait → Bytes → Prop
  | commit {id : SessionId} {slot : Slot} {epoch : Nat} {tx : Bytes} :
    Sent (.commit id slot epoch tx (.mk (.done (.ok ())))) tx
  | follow {slot : Slot} {epoch : Nat} {tx : Bytes} :
    Sent (.follow slot epoch tx (.mk (.done (.ok ())))) tx

theorem Answered.slot_eq {w w' : Wait} {q : Request} {a : q.Answer} (h : Answered w q a w') :
    w'.slot = w.slot := by
  cases h <;> rfl

/-- What waited, the exchanges since then, and how it waits now. -/
inductive After : Wait → List interface.Exchange → Wait → Prop
  | derive {slot : Slot} {epoch : Nat} {rest rest' : Wallet.Asking Multisig}
      {log : List Wallet.interface.Exchange} (h : rest.run.After log rest'.run) :
      After (.derive slot epoch rest) (log.map walletExchange) (.derive slot epoch rest')
  | verify {slot : Slot} {epoch : Nat} {rest rest' : Ledger.Asking Verdict}
      {log : List Ledger.interface.Exchange} (h : rest.run.After log rest'.run) :
      After (.verify slot epoch rest) (log.map ledgerExchange) (.verify slot epoch rest')
  | sign {id : SessionId} {slot : Slot} {round : UInt8} {epoch : Nat} {targets : Targets}
      {rest rest' : Wallet.Asking (Bytes × UInt8)} {log : List Wallet.interface.Exchange}
      (h : rest.run.After log rest'.run) :
      After (.sign id slot round epoch targets rest) (log.map walletExchange)
        (.sign id slot round epoch targets rest')
  | commit {id : SessionId} {slot : Slot} {epoch : Nat} {tx : Bytes}
      {rest rest' : Wallet.Asking Unit} {log : List Wallet.interface.Exchange}
      (h : rest.run.After log rest'.run) :
      After (.commit id slot epoch tx rest) (log.map walletExchange) (.commit id slot epoch tx rest')
  | follow {slot : Slot} {epoch : Nat} {tx : Bytes} {rest rest' : Wallet.Asking Unit}
      {log : List Wallet.interface.Exchange} (h : rest.run.After log rest'.run) :
      After (.follow slot epoch tx rest) (log.map walletExchange) (.follow slot epoch tx rest')

theorem After.refl (w : Wait) : After w [] w := by
  cases w with
  | derive slot epoch rest => exact @derive slot epoch rest rest [] .refl
  | verify slot epoch rest => exact @verify slot epoch rest rest [] .refl
  | sign id slot round epoch targets rest => exact @sign id slot round epoch targets rest rest [] .refl
  | commit id slot epoch tx rest => exact @commit id slot epoch tx rest rest [] .refl
  | follow slot epoch tx rest => exact @follow slot epoch tx rest rest [] .refl

theorem After.snoc {w₀ w w' : Wait} {log : List interface.Exchange} {q : Request} {a : q.Answer}
    (h : After w₀ log w) (ha : w.Answered q a w') : After w₀ (log ++ [⟨q, a⟩]) w' := by
  cases ha with
  | derive a =>
    cases h with
    | derive h => exact map_walletExchange _ _ a ▸ .derive (h.snoc a)
  | verify a =>
    cases h with
    | verify h => exact map_ledgerExchange _ _ a ▸ .verify (h.snoc a)
  | sign a =>
    cases h with
    | sign h => exact map_walletExchange _ _ a ▸ .sign (h.snoc a)
  | commit a =>
    cases h with
    | commit h => exact map_walletExchange _ _ a ▸ .commit (h.snoc a)
  | follow a =>
    cases h with
    | follow h => exact map_walletExchange _ _ a ▸ .follow (h.snoc a)

/-- What waits can be answered, and goes on with the answer. -/
theorem answered_of_program {w : Wait} (hw : w.IsOpen) {q : Request}
    {next : q.Answer → Program interface (Except Error Reply)} (h : w.program = .ask q next)
    (a : q.Answer) : ∃ w', w.Answered q a w' ∧ next a = w'.program := by
  cases w with
  | derive slot epoch rest =>
    obtain ⟨q, next, hr⟩ := hw
    obtain rfl : rest = .mk (.ask q next) := hr
    cases h
    exact ⟨_, .derive a, rfl⟩
  | verify slot epoch rest =>
    obtain ⟨q, next, hr⟩ := hw
    obtain rfl : rest = .mk (.ask q next) := hr
    cases h
    exact ⟨_, .verify a, rfl⟩
  | sign id slot round epoch targets rest =>
    obtain ⟨q, next, hr⟩ := hw
    obtain rfl : rest = .mk (.ask q next) := hr
    cases h
    exact ⟨_, .sign a, rfl⟩
  | commit id slot epoch tx rest =>
    obtain ⟨q, next, hr⟩ := hw
    obtain rfl : rest = .mk (.ask q next) := hr
    cases h
    exact ⟨_, .commit a, rfl⟩
  | follow slot epoch tx rest =>
    obtain ⟨q, next, hr⟩ := hw
    obtain rfl : rest = .mk (.ask q next) := hr
    cases h
    exact ⟨_, .follow a, rfl⟩

end Wait

/-! ### Settling -/

/-- The end of a command that waited: its transition is completed with what the collaborator found,
or the ticket is given back. -/
inductive Settles (n : Node) : Wait → Node → Except Error Reply → Prop
  | derived {slot : Slot} {epoch : Nat} {escrow : Multisig} {now : UInt64}
      {answer : Except Error Unit} {s : Session}
      (hs : (n.directory.session slot).perform now
        (.completeMultisig ⟨.deriveMultisig, epoch⟩ escrow) = (answer, s)) :
      Settles n (.derive slot epoch (.mk (.done (.ok escrow)))) (n.put slot s)
        (answer.map fun _ => .messages [])
  | verified {slot : Slot} {epoch : Nat} {verdict : Verdict} {now : UInt64}
      {answer : Except Error Unit} {s : Session}
      (hs : (n.directory.session slot).perform now
        (.completeVerification ⟨.verifyDeposits, epoch⟩ verdict) = (answer, s)) :
      Settles n (.verify slot epoch (.mk (.done (.ok verdict)))) (n.put slot s)
        (answer.map fun _ => .messages [])
  | signed {id : SessionId} {slot : Slot} {round : UInt8} {epoch : Nat} {targets : Targets}
      {candidate : Bytes} {count : UInt8} {now : UInt64} {answer : Except Error UInt8} {s : Session}
      (hs : (n.directory.session slot).perform now
        (.completeSignature ⟨.signature round, epoch⟩ candidate count) = (answer, s)) :
      Settles n (.sign id slot round epoch targets (.mk (.done (.ok (candidate, count)))))
        (n.put slot s)
        (answer.map fun round => .messages (Outbound.toAll targets
          (.signatureRound id round candidate)))
  | committed {id : SessionId} {slot : Slot} {epoch : Nat} {tx : Bytes} {targets : Targets}
      {now : UInt64} {answer : Except Error Unit} {s : Session}
      (hs : (n.directory.session slot).perform now
        (.completeCommit ⟨.commit, epoch⟩) = (answer, s)) :
      Settles n (.commit id slot epoch tx (.mk (.done (.ok ())))) (n.put slot s)
        (answer.map fun _ => .messages (Outbound.toAll targets (.commit id tx)))
  | followed {slot : Slot} {epoch : Nat} {tx : Bytes} {now : UInt64} {answer : Except Error Unit}
      {s : Session}
      (hs : (n.directory.session slot).perform now
        (.completeCommit ⟨.commit, epoch⟩) = (answer, s)) :
      Settles n (.follow slot epoch tx (.mk (.done (.ok ())))) (n.put slot s)
        (answer.map fun _ => .messages [])
  | released {w : Wait} {e : Error} (hw : w.Failed e) :
      Settles n w (n.put w.slot ((n.directory.session w.slot).release w.ticket)) (.error e)

/-- A segment of a command that waited, or would have to: it still waits, or it settles. -/
def Proceeds (n : Node) (w : Wait) (n' : Node) (p : Program interface (Except Error Reply)) :
    Prop :=
  (w.IsOpen ∧ n' = n ∧ p = w.program) ∨ ∃ r, Settles n w n' r ∧ p = .done r

theorem goes_giveBack {α : Type} {slot : Slot} {ticket : Ticket} {e : Error}
    {p : Program interface (Except Error α)} (h : Goes n (giveBack slot ticket e).run ids n' p) :
    Fails (n.put slot ((n.directory.session slot).release ticket)) e ids n' p := by
  obtain ⟨now, answer, s, hs, ⟨u, -, h⟩ | ⟨e', rfl, -⟩⟩ := goes_call h
  · cases hs
    exact goes_throw h
  · cases (Prod.mk.inj hs).1

/-- A call that ends a command, with a reply that does not depend on it. -/
theorem goes_last {α : Type} {slot : Slot} {c : Session.Call} {f : c.Answer → α}
    {p : Program interface (Except Error α)}
    (h : Goes n (Running.call slot c >>= fun a => pure (f a)).run ids n' p) : ∃ now answer s,
      (n.directory.session slot).perform now c = (answer, s) ∧
      ids = [] ∧ n' = n.put slot s ∧ p = .done (answer.map f) := by
  obtain ⟨now, answer, s, hs, ⟨a, rfl, h⟩ | ⟨e, rfl, rfl, rfl, rfl⟩⟩ := goes_call h
  · obtain ⟨rfl, rfl, rfl⟩ := goes_pure h
    exact ⟨now, _, s, hs, rfl, rfl, rfl⟩
  · exact ⟨now, _, s, hs, rfl, rfl, rfl⟩

/-- A broadcast that failed gives the ticket back; one that did not completes the session, unless
the ticket is stale. -/
theorem goes_settleBroadcast {slot : Slot} {ticket : Ticket} {tx : Bytes} {r : Except Error Unit}
    {f : Bytes → Running Reply} {p : Program interface (Except Error Reply)}
    (h : Goes n (settleBroadcast slot ticket tx r >>= f).run ids n' p) :
    (∃ e, r = .error e ∧
      Fails (n.put slot ((n.directory.session slot).release ticket)) e ids n' p) ∨
    r = .ok () ∧ ∃ now answer s,
      (n.directory.session slot).perform now (.completeCommit ticket) = (answer, s) ∧
      ((answer = .ok () ∧ Goes (n.put slot s) (f tx).run ids n' p) ∨
        ∃ e, answer = .error e ∧ Fails (n.put slot s) e ids n' p) := by
  rcases r with e | u
  · obtain ⟨now, answer, s, hs, ⟨u, -, h⟩ | ⟨e', rfl, -⟩⟩ := goes_call (goes_assoc h)
    · cases hs
      exact .inl ⟨e, rfl, goes_done h⟩
    · cases (Prod.mk.inj hs).1
  · obtain ⟨now, answer, s, hs, ⟨a, rfl, h⟩ | he⟩ := goes_call (goes_assoc h)
    · exact .inr ⟨rfl, now, _, s, hs, .inl ⟨rfl, h⟩⟩
    · exact .inr ⟨rfl, now, answer, s, hs, .inr he⟩

theorem goes_wait {w : Wait} {p : Program interface (Except Error Reply)}
    (h : Goes n w.program ids n' p) : ids = [] ∧ Proceeds n w n' p := by
  cases w with
  | derive slot epoch rest =>
    rcases goes_askWallet h with ⟨q, next, hr, rfl, rfl, rfl⟩ | ⟨r, hr, h⟩
    · exact ⟨rfl, .inl ⟨⟨q, next, hr⟩, rfl, rfl⟩⟩
    · rcases r with e | escrow
      · obtain rfl : rest = .mk (.done (.error e)) := hr
        obtain ⟨rfl, rfl, rfl⟩ := goes_giveBack h
        exact ⟨rfl, .inr ⟨_, .released .derive, rfl⟩⟩
      · obtain rfl : rest = .mk (.done (.ok escrow)) := hr
        obtain ⟨now, answer, s, hs, rfl, rfl, rfl⟩ := goes_last h
        exact ⟨rfl, .inr ⟨_, .derived hs, rfl⟩⟩
  | verify slot epoch rest =>
    rcases goes_askLedger h with ⟨q, next, hr, rfl, rfl, rfl⟩ | ⟨r, hr, h⟩
    · exact ⟨rfl, .inl ⟨⟨q, next, hr⟩, rfl, rfl⟩⟩
    · rcases r with e | verdict
      · obtain rfl : rest = .mk (.done (.error e)) := hr
        obtain ⟨rfl, rfl, rfl⟩ := goes_giveBack h
        exact ⟨rfl, .inr ⟨_, .released .verify, rfl⟩⟩
      · obtain rfl : rest = .mk (.done (.ok verdict)) := hr
        obtain ⟨now, answer, s, hs, rfl, rfl, rfl⟩ := goes_last h
        exact ⟨rfl, .inr ⟨_, .verified hs, rfl⟩⟩
  | sign id slot round epoch targets rest =>
    rcases goes_askWallet h with ⟨q, next, hr, rfl, rfl, rfl⟩ | ⟨r, hr, h⟩
    · exact ⟨rfl, .inl ⟨⟨q, next, hr⟩, rfl, rfl⟩⟩
    · rcases r with e | ⟨candidate, count⟩
      · obtain rfl : rest = .mk (.done (.error e)) := hr
        obtain ⟨rfl, rfl, rfl⟩ := goes_giveBack h
        exact ⟨rfl, .inr ⟨_, .released .sign, rfl⟩⟩
      · obtain rfl : rest = .mk (.done (.ok (candidate, count))) := hr
        obtain ⟨now, answer, s, hs, rfl, rfl, rfl⟩ := goes_last h
        exact ⟨rfl, .inr ⟨_, .signed hs, rfl⟩⟩
  | commit id slot epoch tx rest =>
    rcases goes_askWallet h with ⟨q, next, hr, rfl, rfl, rfl⟩ | ⟨r, hr, h⟩
    · exact ⟨rfl, .inl ⟨⟨q, next, hr⟩, rfl, rfl⟩⟩
    · rcases goes_settleBroadcast h with ⟨e, rfl, rfl, rfl, rfl⟩ | ⟨rfl, now, answer, s, hs, hb⟩
      · obtain rfl : rest = .mk (.done (.error e)) := hr
        exact ⟨rfl, .inr ⟨_, .released .commit, rfl⟩⟩
      · obtain rfl : rest = .mk (.done (.ok ())) := hr
        rcases hb with ⟨rfl, hb⟩ | ⟨e, rfl, rfl, rfl, rfl⟩
        · obtain ⟨env, hb⟩ := goes_ask hb
          obtain ⟨rfl, rfl, rfl⟩ := goes_pure hb
          exact ⟨rfl, .inr ⟨_, .committed hs, rfl⟩⟩
        · exact ⟨rfl, .inr ⟨_, @Settles.committed n id slot epoch tx [] now _ s hs, rfl⟩⟩
  | follow slot epoch tx rest =>
    rcases goes_askWallet h with ⟨q, next, hr, rfl, rfl, rfl⟩ | ⟨r, hr, h⟩
    · exact ⟨rfl, .inl ⟨⟨q, next, hr⟩, rfl, rfl⟩⟩
    · rcases goes_settleBroadcast h with ⟨e, rfl, rfl, rfl, rfl⟩ | ⟨rfl, now, answer, s, hs, hb⟩
      · obtain rfl : rest = .mk (.done (.error e)) := hr
        exact ⟨rfl, .inr ⟨_, .released .follow, rfl⟩⟩
      · obtain rfl : rest = .mk (.done (.ok ())) := hr
        rcases hb with ⟨rfl, hb⟩ | ⟨e, rfl, rfl, rfl, rfl⟩
        · obtain ⟨rfl, rfl, rfl⟩ := goes_pure hb
          exact ⟨rfl, .inr ⟨_, .followed hs, rfl⟩⟩
        · exact ⟨rfl, .inr ⟨_, .followed hs, rfl⟩⟩

end EscrowMix.Node
