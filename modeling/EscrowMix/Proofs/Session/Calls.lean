import EscrowMix.Proofs.Session.Consistent

/-!
Runs of calls on a session, and the mark that a deposit can be taken back, which only the call for it
sets.
-/

namespace EscrowMix.Session

variable {s s' s'' : Session} {now : UInt64} {marks : Role → Prop} {r : Role}

/-- From one session to another by calls, which mark these roles' deposits only. -/
inductive Calls (marks : Role → Prop) (s : Session) : Session → Prop
  | refl : Calls marks s s
  | snoc {s' : Session} (h : Calls marks s s') (now : UInt64) (c : Call) (hc : c.IsMatched)
      (hm : ∀ role, c = .markReclaimable role → marks role) : Calls marks s (s'.perform now c).2

theorem Reachable.calls (h : Reachable s) (hc : Calls marks s s') : Reachable s' := by
  induction hc with
  | refl => exact h
  | snoc _ now c hc _ ih => exact ih.perform now c hc

theorem Calls.mono {marks' : Role → Prop} (h : Calls marks s s') (hm : ∀ r, marks r → marks' r) :
    Calls marks' s s' := by
  induction h with
  | refl => exact .refl
  | snoc _ now c hc hmarks ih => exact ih.snoc now c hc fun role he => hm role (hmarks role he)

/-- What a call does with the record of a session. -/
inductive Records (c : Call) (r : Escrow.Record) : Escrow.Record → Prop
  | kept : Records c r r
  | emptied : Records c r .empty
  | deposited (role : Role) (d : Deposit) : Records c r (r.deposited role d)
  | proposed (tx : Bytes) (count : UInt8) : Records c r (r.proposed tx count)
  | reclaimed (role : Role) (hc : c = .markReclaimable role) : Records c r (r.reclaimed role)

theorem Records.of_eq {c : Call} {r r' : Escrow.Record} (h : r' = r) : Records c r r' := by
  rw [h]
  exact .kept

theorem deposited_records {c : Call} {role : Role} {d : Deposit} {record : Escrow.Record}
    (h : s.record.recordDeposit role d = .ok record) (event : String) (now : UInt64) :
    Records c s.record (s.deposited record event now).record := by
  obtain ⟨-, -, rfl⟩ := Escrow.Record.recordDeposit_eq_ok.1 h
  have hrec : (s.deposited (s.record.deposited role d) event now).record =
    s.record.deposited role d := promoted_record ..
  rw [hrec]
  exact .deposited role d

theorem perform_records {c : Call} {answer : Except Error c.Answer}
    (hs : s.perform now c = (answer, s')) : Records c s.record s'.record := by
  cases perform_outcome hs with
  | ownKey => exact .of_eq ((promoted_record ..).trans (keyed_record ..))
  | peerKey | multisig => exact .of_eq (promoted_record ..)
  | ownDeposit _ _ _ hrec | peerDeposit _ _ _ _ hrec => exact deposited_records hrec _ now
  | accepted | rejected => exact .kept
  | produced _ _ hrec | received _ _ _ _ hrec =>
    obtain ⟨-, rfl⟩ := Escrow.Record.setCandidate_eq_ok.1 hrec
    exact .proposed ..
  | reclaimable => exact .reclaimed _ rfl
  | reset => exact .emptied
  | miscounted | forced =>
    rw [forceReset_eq]
    exact .emptied
  | refused | begunAsSender | begunInvited | ownKeyAgain | peerKeyAgain | claimedMultisig
  | claimedVerification | claimedSignature | unfit | claimedCommit | committed | returned | ignored
  | flagged | flaggedBefore | peerSet => exact .kept

/-- A deposit is marked by the call for it, and by no other. -/
theorem perform_reclaimable {c : Call} {answer : Except Error c.Answer}
    (hs : s.perform now c = (answer, s')) (hr : s'.record.reclaimable.get r = true) :
    s.record.reclaimable.get r = true ∨ c = .markReclaimable r := by
  generalize hrec : s'.record = record at hr
  cases hrec ▸ perform_records hs with
  | kept => exact .inl hr
  | emptied =>
    rw [Escrow.Record.empty_reclaimable] at hr
    cases hr
  | deposited role d => exact .inl hr
  | proposed tx count => exact .inl hr
  | reclaimed role hc =>
    rw [Escrow.Record.reclaimed_reclaimable] at hr
    split at hr
    · next he => exact .inr (he ▸ hc)
    · exact .inl hr

theorem Calls.reclaimable (h : Calls marks s s') (hr : s'.record.reclaimable.get r = true) :
    s.record.reclaimable.get r = true ∨ marks r := by
  induction h with
  | refl => exact .inl hr
  | @snoc s₁ _ now c _ hm ih =>
    have hs : s₁.perform now c = ((s₁.perform now c).1, (s₁.perform now c).2) := rfl
    rcases perform_reclaimable hs hr with hr | hc
    · exact ih hr
    · exact .inr (hm r hc)

end EscrowMix.Session
