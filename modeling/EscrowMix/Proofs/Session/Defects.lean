import EscrowMix.Proofs.Session.Transitions

/-!
Calls that find data missing in a session, or amounts too large. Most calls read nothing that could
be missing, whatever the session, so each of their failures has another reason.
-/

namespace EscrowMix

/-- An error that says that data of a session is missing, or that its amounts are too large. -/
def Error.isDefect : Error → Bool
  | .escrow (.missingDeposit _) | .escrow .noCandidate | .party (.missingKey _)
  | .schedule (.missingPayoutAddress _) | .schedule .amountOverflow => true
  | _ => false

namespace Session

variable {s s' : Session} {now : UInt64} {c : Call} {role : Role} {e : Error}

/-- The computation never fails for want of data. -/
abbrev NoDefect {α : Type} (x : Except Error α) : Prop := FailsAs (fun e => e.isDefect = false) x

/-- Then whatever is said of its defects is true. -/
theorem NoDefect.failsAs {α : Type} {x : Except Error α} {p : Error → Prop} (h : NoDefect x) :
    FailsAs (fun e => e.isDefect = true → p e) x :=
  h.mono fun _ hf ht => nomatch hf.symm.trans ht

/-! ### Guards and small steps -/

theorem ensureIdle_noDefect : NoDefect s.ensureIdle := by
  unfold ensureIdle
  split
  · exact failsAs_error rfl
  · exact failsAs_ok _ _

theorem ensureStatus_noDefect {allowed : List Status} {op : Operation} :
    NoDefect (s.ensureStatus allowed op) := by
  unfold ensureStatus
  split
  · exact failsAs_ok _ _
  · exact failsAs_error rfl

theorem localRole_noDefect : NoDefect s.localRole := by
  refine FailsAs.mapError ?_
  unfold Registry.localRole
  split
  · exact failsAs_ok _ _
  · exact failsAs_error rfl

theorem ensurePeerRole_noDefect : NoDefect (s.ensurePeerRole role) := by
  refine FailsAs.bind localRole_noDefect fun own _ => ?_
  split
  · exact failsAs_error rfl
  · exact failsAs_ok _ _

theorem setRole_noDefect {g : Registry} : NoDefect ((g.setRole role).mapError .party) := by
  refine FailsAs.mapError ?_
  unfold Registry.setRole
  split
  · split
    · exact failsAs_ok _ _
    · exact failsAs_error rfl
  · exact failsAs_ok _ _

theorem register_noDefect {g : Registry} {address : Address} {key : PublicKey} :
    NoDefect ((g.register role address key).mapError .party) := by
  refine FailsAs.mapError (FailsAs.bind ?_ fun news _ => ?_)
  · unfold Registry.isNews
    split
    · exact failsAs_ok _ _
    · split
      · exact failsAs_ok _ _
      · exact failsAs_error rfl
    · exact failsAs_error rfl
  · split <;> exact failsAs_ok _ _

theorem recordDeposit_noDefect {r : Escrow.Record} {d : Deposit} :
    NoDefect ((r.recordDeposit role d).mapError .escrow) := by
  refine FailsAs.mapError (FailsAs.bind ?_ fun _ _ => failsAs_ok _ _)
  unfold Escrow.Record.checkDeposit
  split
  · exact failsAs_error rfl
  · split
    · exact failsAs_error rfl
    · exact failsAs_ok _ _

theorem checkCandidate_noDefect {r : Escrow.Record} {count : UInt8} :
    FailsAs (fun e => (Error.escrow e).isDefect = false) (r.checkCandidate count) := by
  unfold Escrow.Record.checkCandidate
  split
  · exact failsAs_error rfl
  · split
    · exact failsAs_error rfl
    · split
      · exact failsAs_error rfl
      · exact failsAs_ok _ _

theorem setCandidate_noDefect {r : Escrow.Record} {tx : Bytes} {count : UInt8} :
    FailsAs (fun e => (Error.escrow e).isDefect = false) (r.setCandidate tx count) :=
  FailsAs.bind checkCandidate_noDefect fun _ _ => failsAs_ok _ _

theorem redeem_noDefect {t : Ticket} : NoDefect (s.redeem t) := by
  unfold redeem
  split
  · exact failsAs_ok _ _
  · exact failsAs_error rfl

theorem awaitedRound_noDefect : NoDefect s.awaitedRound := by
  unfold awaitedRound
  split
  · exact failsAs_ok _ _
  · exact failsAs_ok _ _
  · split
    · exact failsAs_ok _ _
    · exact failsAs_error rfl

/-! ### Calls that read no such data -/

theorem orKeep_failsAs {p : Error → Prop} {α : Type} {x : Except Error (α × Session)}
    (h : FailsAs p x) : FailsAs p (s.orKeep x).1 := by
  rcases x with e | a
  · exact failsAs_error (h e rfl)
  · exact failsAs_ok _ _

theorem orKeepUnit_failsAs {p : Error → Prop} {x : Except Error Session} (h : FailsAs p x) :
    FailsAs p (s.orKeepUnit x).1 := by
  rcases x with e | a
  · exact failsAs_error (h e rfl)
  · exact failsAs_ok _ _

/-- The calls that need the deposits or the distribution. -/
def Call.readsEscrow : Call → Bool
  | .claimVerification _ | .claimSignature | .claimCommit _ | .markReclaimable _ => true
  | _ => false

theorem perform_noDefect (hc : c.readsEscrow = false) : NoDefect (s.perform now c).1 := by
  cases c with
  | beginAsSender =>
    refine orKeepUnit_failsAs (.bind ensureIdle_noDefect fun _ _ => ?_)
    refine .bind ensureStatus_noDefect fun _ _ => .check rfl fun _ => ?_
    exact .bind setRole_noDefect fun _ _ => failsAs_ok _ _
  | beginInvited =>
    refine orKeepUnit_failsAs (.bind ensureIdle_noDefect fun _ _ => ?_)
    refine .bind ensureStatus_noDefect fun _ _ => .check rfl fun _ => .check rfl fun _ => ?_
    exact .bind setRole_noDefect fun _ _ => failsAs_ok _ _
  | setOwnKey =>
    refine orKeep_failsAs (.bind ensureIdle_noDefect fun _ _ => ?_)
    refine .bind localRole_noDefect fun _ _ => .bind ensureStatus_noDefect fun _ _ => ?_
    refine .bind register_noDefect fun out _ => ?_
    dsimp only
    split <;> exact failsAs_ok _ _
  | learnKey =>
    refine orKeep_failsAs (.bind ensureIdle_noDefect fun _ _ => ?_)
    refine .bind ensurePeerRole_noDefect fun _ _ => .check rfl fun _ => ?_
    refine .bind register_noDefect fun out _ => ?_
    dsimp only
    split
    · exact .bind ensureStatus_noDefect fun _ _ => failsAs_ok _ _
    · exact failsAs_ok _ _
  | claimMultisig =>
    refine orKeep_failsAs (.bind ensureIdle_noDefect fun _ _ => ?_)
    refine .bind ensureStatus_noDefect fun _ _ => ?_
    split
    · exact failsAs_error rfl
    · exact failsAs_ok _ _
  | completeMultisig => exact orKeepUnit_failsAs (.bind redeem_noDefect fun _ _ => failsAs_ok _ _)
  | recordOwnDeposit =>
    refine orKeepUnit_failsAs (.bind ensureIdle_noDefect fun _ _ => ?_)
    refine .bind localRole_noDefect fun _ _ => .bind recordDeposit_noDefect fun _ _ => ?_
    exact .bind ensureStatus_noDefect fun _ _ => failsAs_ok _ _
  | learnDeposit =>
    refine orKeepUnit_failsAs (.bind ensureIdle_noDefect fun _ _ => ?_)
    refine .bind ensurePeerRole_noDefect fun _ _ => .bind recordDeposit_noDefect fun _ _ => ?_
    exact .bind ensureStatus_noDefect fun _ _ => failsAs_ok _ _
  | completeVerification ticket verdict =>
    rw [perform, completeVerification]
    split
    · next he => exact failsAs_error (redeem_noDefect _ he)
    · cases verdict with
      | accepted => exact failsAs_ok _ _
      | rejected => exact failsAs_error rfl
  | completeSignature ticket candidate count =>
    rw [perform, completeSignature]
    split
    · split
      · next he => exact failsAs_error (redeem_noDefect _ he)
      · split
        · exact failsAs_error rfl
        · split
          · next he => exact failsAs_error (setCandidate_noDefect _ he)
          · exact failsAs_ok _ _
    · exact failsAs_error rfl
  | learnRound =>
    refine orKeepUnit_failsAs (.bind ensureIdle_noDefect fun _ _ => ?_)
    refine .bind localRole_noDefect fun _ _ => .bind awaitedRound_noDefect fun _ _ => ?_
    refine .check rfl fun _ => .check rfl fun _ => .check rfl fun _ => .check rfl fun _ => ?_
    exact .bind (.mapError setCandidate_noDefect) fun _ _ => failsAs_ok _ _
  | completeCommit => exact orKeepUnit_failsAs (.bind redeem_noDefect fun _ _ => failsAs_ok _ _)
  | reset =>
    refine orKeepUnit_failsAs ?_
    unfold reset
    split
    · exact failsAs_ok _ _
    · exact failsAs_error rfl
  | release | forceReset | flag => exact failsAs_ok _ _
  | setPeer =>
    exact orKeepUnit_failsAs (.bind ensurePeerRole_noDefect fun _ _ => failsAs_ok _ _)
  | claimVerification | claimSignature | claimCommit | markReclaimable => cases hc

end Session

end EscrowMix
