import EscrowMix.Proofs.Session.Progress
import Mathlib.Data.List.DropRight
import Mathlib.Data.List.Forall2

/-!
The audit log as evidence. Read from the last reset on, the lines that note a change of status form
a chain from the beginning to the status of the session, and a forced reset leaves a line for every
deposit that has no way back.

A line is known by its first word. A change of status begins with the name of a status, a reset with
one of two words of its own, and no other line begins with any of these. Since every change of status
is noted together with the status it leaves, the chain does not break where the ticket of another
transition takes a session past several statuses at once.
-/

namespace EscrowMix

variable {e : LogEntry} {log lines : List LogEntry} {a b c : Status}

/-! ### Lines of the log -/

/-- What stands before the first blank. -/
def firstWord (text : String) : List Char := text.toList.takeWhile (· ≠ ' ')

theorem firstWord_eq {front text : String} (hb : ' ' ∈ front.toList)
    (h : front.toList <+: text.toList) : firstWord text = firstWord front := by
  obtain ⟨rest, hrest⟩ := h
  have hshort : (front.toList.takeWhile (· ≠ ' ')).length ≠ front.toList.length := by
    intro hlen
    have hall := (List.takeWhile_prefix (· ≠ ' ')).eq_of_length hlen
    simpa using List.takeWhile_eq_self_iff.1 hall ' ' hb
  rw [firstWord, firstWord, ← hrest, List.takeWhile_append, if_neg hshort]

theorem toList_prefix_append (front rest : String) : front.toList <+: (front ++ rest).toList := by
  rw [String.toList_append]
  exact List.prefix_append ..

/-- The words that resets begin with. -/
def resetWords : List (List Char) := ["reset".toList, "forced".toList]

/-- The words that resets and changes of status begin with. -/
def reservedWords : List (List Char) := resetWords ++ Status.all.map (·.name.toList)

theorem nodup_reservedWords : reservedWords.Nodup := by decide +kernel

/-- A text that notes neither a change of status nor a reset, whatever follows it. -/
def Plain (text : String) : Prop := ' ' ∈ text.toList ∧ firstWord text ∉ reservedWords

instance (text : String) : Decidable (Plain text) := inferInstanceAs (Decidable (_ ∧ _))

theorem Plain.append {front : String} (h : Plain front) (rest : String) : Plain (front ++ rest) := by
  have hp := toList_prefix_append front rest
  refine ⟨hp.mem h.1, ?_⟩
  rw [firstWord_eq h.1 hp]
  exact h.2

namespace LogEntry

/-- The change of status that a line notes. -/
def change? (e : LogEntry) : Option (Status × Status) :=
  (Status.all.product Status.all).find? fun m => m.1.name ++ " -> " ++ m.2.name = e.event

/-- What the line of a reset begins with. -/
def resetMarks : List String := ["reset from ", "forced reset from "]

/-- The line notes a reset. -/
def isReset (e : LogEntry) : Bool :=
  resetMarks.any fun mark => mark.toList.isPrefixOf e.event.toList

theorem isReset_iff : e.isReset = true ↔ ∃ mark ∈ resetMarks, mark.toList <+: e.event.toList := by
  simp only [isReset, List.any_eq_true, List.isPrefixOf_iff_prefix]

end LogEntry

namespace Status

theorem mem_all (a : Status) : a ∈ all := List.mem_of_getElem? (all_rank a)

theorem name_inj (h : a.name = b.name) : a = b :=
  List.inj_on_of_nodup_map nodup_reservedWords.of_append_right (mem_all a) (mem_all b)
    (congrArg String.toList h)

theorem name_not_mem_resetWords (a : Status) : a.name.toList ∉ resetWords := fun h =>
  List.disjoint_of_nodup_append nodup_reservedWords h (List.mem_map_of_mem (mem_all a))

end Status

open Session

theorem firstWord_advanceEvent (a b : Status) : firstWord (advanceEvent a b) = a.name.toList := by
  have hwords : ∀ a ∈ Status.all, ' ' ∈ (a.name ++ " -> ").toList ∧
      firstWord (a.name ++ " -> ") = a.name.toList := by decide +kernel
  have hp : (a.name ++ " -> ").toList <+: (advanceEvent a b).toList := toList_prefix_append ..
  obtain ⟨hblank, hword⟩ := hwords a (Status.mem_all a)
  rw [firstWord_eq hblank hp, hword]

theorem advanceEvent_inj {a' b' : Status} (h : advanceEvent a b = advanceEvent a' b') :
    a = a' ∧ b = b' := by
  have hword : a.name.toList = a'.name.toList := by
    rw [← firstWord_advanceEvent a b, h, firstWord_advanceEvent]
  obtain rfl := Status.name_inj (String.toList_inj.1 hword)
  exact ⟨rfl, Status.name_inj ((String.append_right_inj _).1 h)⟩

namespace LogEntry

theorem change?_eq_some : e.change? = some (a, b) ↔ e.event = advanceEvent a b := by
  constructor
  · intro h
    have hm := List.find?_some h
    exact (of_decide_eq_true hm).symm
  · intro h
    have hmem : (a, b) ∈ Status.all.product Status.all :=
      List.pair_mem_product.2 ⟨Status.mem_all a, Status.mem_all b⟩
    cases hf : e.change? with
    | none => exact absurd (decide_eq_true h.symm) (List.find?_eq_none.1 hf _ hmem)
    | some m =>
      have hm := List.find?_some hf
      obtain ⟨ha, hb⟩ := advanceEvent_inj ((of_decide_eq_true hm).trans h)
      rw [← ha, ← hb]

theorem change?_eq_none_of_plain (h : Plain e.event) : e.change? = none := by
  refine Option.eq_none_iff_forall_ne_some.2 fun m hm => h.2 ?_
  rw [change?_eq_some.1 hm, firstWord_advanceEvent]
  exact List.mem_append_right _ (List.mem_map_of_mem (Status.mem_all m.1))

theorem firstWord_of_isReset (h : e.isReset = true) : firstWord e.event ∈ resetWords := by
  have hmarks : ∀ mark ∈ resetMarks, ' ' ∈ mark.toList ∧ firstWord mark ∈ resetWords := by
    decide +kernel
  obtain ⟨mark, hmark, hp⟩ := isReset_iff.1 h
  rw [firstWord_eq (hmarks mark hmark).1 hp]
  exact (hmarks mark hmark).2

theorem isReset_of_plain (h : Plain e.event) : e.isReset = false :=
  Bool.eq_false_iff.2 fun hr => h.2 (List.mem_append_left _ (firstWord_of_isReset hr))

theorem isReset_of_change (h : e.change? = some (a, b)) : e.isReset = false := by
  refine Bool.eq_false_iff.2 fun hr => ?_
  have hword := firstWord_of_isReset hr
  rw [change?_eq_some.1 h, firstWord_advanceEvent] at hword
  exact a.name_not_mem_resetWords hword

end LogEntry

/-! ### The lines of calls -/

/-- What the lines of calls begin with that note neither a change of status nor a reset. -/
def openings : List String :=
  ["begin as Sender, ", "invited as ", "own address ", "escrow address ", "own deposit ",
    verifiedEvent, "deposit verification failed: ", "produced distribution round ",
    "received distribution round ", broadcastEvent, "deposit of ", "idle in ",
    "manual recovery needed for "] ++
  Role.all.flatMap fun role => [role.name ++ " announced address ", role.name ++ " deposit "]

theorem openings_plain : ∀ front ∈ openings, Plain front := by decide +kernel

theorem senderEvent_plain (schedule : Schedule) (fees : FeePolicy) :
    Plain (senderEvent schedule fees) := by
  have hfront : Plain "begin as Sender, " := openings_plain _ (by simp [openings])
  exact ((hfront.append _).append _).append _

theorem invitedEvent_plain (role : Role) (sender : PeerId) (schedule : Schedule)
    (fees : FeePolicy) : Plain (invitedEvent role sender schedule fees) := by
  have hfront : Plain "invited as " := openings_plain _ (by simp [openings])
  exact ((((hfront.append _).append _).append _).append _).append _

theorem ownKeyEvent_plain (address : Address) (key : PublicKey) :
    Plain (ownKeyEvent address key) := by
  have hfront : Plain "own address " := openings_plain _ (by simp [openings])
  exact ((hfront.append _).append _).append _

theorem learnedKeyEvent_plain (role : Role) (address : Address) (key : PublicKey) :
    Plain (learnedKeyEvent role address key) := by
  have hfront : Plain (role.name ++ " announced address ") := openings_plain _
    (List.mem_append_right _ (List.mem_flatMap_of_mem role.mem_all (.head _)))
  exact ((hfront.append _).append _).append _

theorem escrowEvent_plain (escrow : Multisig) : Plain (escrowEvent escrow) := by
  have hfront : Plain "escrow address " := openings_plain _ (by simp [openings])
  exact hfront.append _

theorem ownDepositEvent_plain (deposit : Deposit) : Plain (ownDepositEvent deposit) := by
  have hfront : Plain "own deposit " := openings_plain _ (by simp [openings])
  exact hfront.append _

theorem learnedDepositEvent_plain (role : Role) (deposit : Deposit) :
    Plain (learnedDepositEvent role deposit) := by
  have hfront : Plain (role.name ++ " deposit ") := openings_plain _
    (List.mem_append_right _ (List.mem_flatMap_of_mem role.mem_all (.tail _ (.head _))))
  exact hfront.append _

theorem verifiedEvent_plain : Plain verifiedEvent := openings_plain _ (by simp [openings])

theorem rejectedEvent_plain (failure : EscrowFailure) : Plain (rejectedEvent failure) := by
  have hfront : Plain "deposit verification failed: " := openings_plain _ (by simp [openings])
  exact hfront.append _

theorem roundEvent_plain {verb : String} (hv : verb ∈ ["produced", "received"]) (round : UInt8) :
    Plain (roundEvent verb round) := by
  have hfront : Plain (verb ++ " distribution round ") := by
    obtain rfl | rfl := List.mem_pair.1 hv
    · exact openings_plain "produced distribution round " (by simp [openings])
    · exact openings_plain "received distribution round " (by simp [openings])
  exact hfront.append _

theorem broadcastEvent_plain : Plain broadcastEvent := openings_plain _ (by simp [openings])

theorem reclaimableEvent_plain (role : Role) : Plain (reclaimableEvent role) := by
  have hfront : Plain "deposit of " := openings_plain _ (by simp [openings])
  exact (hfront.append _).append _

theorem idleEvent_plain (status : Status) : Plain (idleEvent status) := by
  have hfront : Plain "idle in " := openings_plain _ (by simp [openings])
  exact (hfront.append _).append _

theorem strandedEvent_plain (role : Role) (o : OutPoint) : Plain (strandedEvent role o) := by
  have hfront : Plain "manual recovery needed for " := openings_plain _ (by simp [openings])
  exact ((hfront.append _).append _).append _

theorem forcedResetEvent_isReset (status : Status) (reason : String) (time : UInt64) :
    (LogEntry.mk time (forcedResetEvent status reason)).isReset = true := by
  refine LogEntry.isReset_iff.2 ⟨"forced reset from ", .tail _ (.head _), ?_⟩
  have hstatus := toList_prefix_append "forced reset from " status.name
  have hcolon := toList_prefix_append ("forced reset from " ++ status.name) ": "
  exact (hstatus.trans hcolon).trans (toList_prefix_append _ reason)

theorem resetEvent_isReset (status : Status) (time : UInt64) :
    (LogEntry.mk time (resetEvent status)).isReset = true :=
  LogEntry.isReset_iff.2 ⟨"reset from ", .head _, toList_prefix_append ..⟩

/-! ### Chains of changes -/

/-- The lines after the last reset, or all if there was none. -/
def sinceReset (log : List LogEntry) : List LogEntry := log.rtakeWhile fun e => !e.isReset

theorem sinceReset_append (h : ∀ e ∈ lines, e.isReset = false) :
    sinceReset (log ++ lines) = sinceReset log ++ lines := by
  have hrev : ∀ e ∈ lines.reverse, (!e.isReset) = true := fun e he => by
    rw [h e (List.mem_reverse.1 he), Bool.not_false]
  rw [sinceReset, List.rtakeWhile, List.reverse_append, List.takeWhile_append_of_pos hrev,
    List.reverse_append, List.reverse_reverse, sinceReset, List.rtakeWhile]

theorem sinceReset_of_reset (hr : e.isReset = true) (h : ∀ e ∈ lines, e.isReset = false) :
    sinceReset (log ++ e :: lines) = lines := by
  have hlast : sinceReset (log ++ [e]) = [] := List.rtakeWhile_concat_neg _ _ _ (by simp [hr])
  rw [← List.singleton_append, ← List.append_assoc, sinceReset_append h, hlast, List.nil_append]

/-- The changes of status that a log notes after the last reset. -/
def changes (log : List LogEntry) : List (Status × Status) :=
  (sinceReset log).filterMap LogEntry.change?

/-- Each change takes up the status that the one before it ended in. -/
inductive Leads : Status → List (Status × Status) → Status → Prop
  | refl (a : Status) : Leads a [] a
  | step {a b c : Status} {ms : List (Status × Status)} (h : Leads b ms c) :
    Leads a ((a, b) :: ms) c

theorem Leads.append {ms ns : List (Status × Status)} (h : Leads a ms b) (h' : Leads b ns c) :
    Leads a (ms ++ ns) c := by
  induction h with
  | refl a => exact h'
  | step h ih => exact .step (ih h')

theorem Leads.of_eq (h : b = a) : Leads a [] b := h ▸ .refl a

namespace Session

variable {s s' s'' : Session} {now : UInt64}

/-- From a session to a later one without a reset between: the log was continued, and its new
lines note how the status changed. -/
def Noted (s s' : Session) : Prop :=
  ∃ lines, s'.log = s.log ++ lines ∧ (∀ e ∈ lines, e.isReset = false) ∧
    Leads s.status (lines.filterMap LogEntry.change?) s'.status

/-- A session at its beginning, with nothing noted since the last reset. -/
def Restarted (s : Session) : Prop := s.status = .notBegun ∧ changes s.log = []

/-- The changes that the log notes lead from the beginning to the status. -/
def Accounted (s : Session) : Prop := Leads .notBegun (changes s.log) s.status

theorem Restarted.accounted (h : Restarted s) : Accounted s := by
  rw [Accounted, h.1, h.2]
  exact .refl _

theorem Accounted.noted (h : Accounted s) (hn : Noted s s') : Accounted s' := by
  obtain ⟨lines, hlog, hreset, hleads⟩ := hn
  have hchanges : changes s'.log = changes s.log ++ lines.filterMap LogEntry.change? := by
    rw [changes, hlog, sinceReset_append hreset, List.filterMap_append]
    rfl
  rw [Accounted, hchanges]
  exact Leads.append h hleads

namespace Noted

theorem of_eq (hl : s'.log = s.log) (hst : s'.status = s.status) : Noted s s' :=
  ⟨[], by rw [hl, List.append_nil], nofun, .of_eq hst⟩

theorem trans (h : Noted s s') (h' : Noted s' s'') : Noted s s'' := by
  obtain ⟨lines, hlog, hreset, hleads⟩ := h
  obtain ⟨lines', hlog', hreset', hleads'⟩ := h'
  refine ⟨lines ++ lines', by rw [hlog', hlog, List.append_assoc], fun e he => ?_, ?_⟩
  · exact (List.mem_append.1 he).elim (hreset e) (hreset' e)
  · rw [List.filterMap_append]
    exact hleads.append hleads'

/-- One more line, of no matter for the status. -/
theorem line {event : String} (h : Plain event) (now : UInt64)
    (hs : s'.log = s.log ++ [⟨now, event⟩] ∧ s'.status = s.status) : Noted s s' := by
  refine ⟨[⟨now, event⟩], hs.1, fun e he => ?_, ?_⟩
  · rw [List.mem_singleton.1 he]
    exact LogEntry.isReset_of_plain h
  · rw [List.filterMap_cons_none (LogEntry.change?_eq_none_of_plain h)]
    exact .of_eq hs.2

theorem advanced (h : Noted s s') (st : Status) (now : UInt64) : Noted s (s'.advanced st now) := by
  have hchange : LogEntry.change? ⟨now, advanceEvent s'.status st⟩ = some (s'.status, st) :=
    LogEntry.change?_eq_some.2 rfl
  refine h.trans ⟨[⟨now, advanceEvent s'.status st⟩], rfl, fun e he => ?_, ?_⟩
  · rw [List.mem_singleton.1 he]
    exact LogEntry.isReset_of_change hchange
  · rw [List.filterMap_cons_some hchange]
    exact .step (.refl st)

theorem promoted (h : Noted s s') (now : UInt64) : Noted s (s'.promoted now) := by
  unfold Session.promoted
  split
  · exact h.advanced _ now
  · exact h

theorem touched (h : Noted s s') (now : UInt64) : Noted s (s'.touched now) :=
  h.trans (of_eq rfl rfl)

end Noted

/-! ### Resets -/

/-- The line names the deposit of the role. -/
def Names (r : Escrow.Record) (now : UInt64) (role : Role) (e : LogEntry) : Prop :=
  ∃ d, r.deposit role = some d ∧
    e = ⟨now, "manual recovery needed for " ++ role.name ++ " deposit " ++ d.outPoint.text⟩

/-- The deposits without a way back are named one after the other. -/
theorem strandedEvents_names (r : Escrow.Record) (now : UInt64) :
    List.Forall₂ (Names r now) r.unreclaimed ((strandedEvents r).map (LogEntry.mk now)) := by
  have hdeposit : ∀ role ∈ r.unreclaimed, ∃ d, r.deposit role = some d := fun role h => by
    have htest := (List.mem_filter.1 h).2
    exact Option.isSome_iff_exists.1 (Bool.and_eq_true_iff.1 htest).1
  unfold strandedEvents
  -- no role is passed over, since each of these has a deposit
  generalize r.unreclaimed = roles at hdeposit ⊢
  induction roles with
  | nil => exact .nil
  | cons role roles ih =>
    obtain ⟨d, hd⟩ := hdeposit role List.mem_cons_self
    rw [List.filterMap_cons_some (by rw [hd]; rfl), List.map_cons]
    exact .cons ⟨d, hd, rfl⟩ (ih fun q hq => hdeposit q (List.mem_cons_of_mem role hq))

theorem strandedEvents_plain {r : Escrow.Record} {event : String} (h : event ∈ strandedEvents r) :
    Plain event := by
  obtain ⟨role, -, hevent⟩ := List.mem_filterMap.1 h
  obtain ⟨d, -, rfl⟩ := Option.map_eq_some_iff.1 hevent
  exact strandedEvent_plain role d.outPoint

theorem forceReset_restarted (s : Session) (reason : String) (now : UInt64) :
    Restarted (s.forceReset reason now) := by
  have hreset := forcedResetEvent_isReset s.status reason now
  have hplain : ∀ e ∈ (strandedEvents s.record).map (LogEntry.mk now), Plain e.event := fun e he => by
    obtain ⟨event, hevent, rfl⟩ := List.mem_map.1 he
    exact strandedEvents_plain hevent
  rw [forceReset_eq]
  refine ⟨rfl, ?_⟩
  change changes (s.log ++ _ :: _) = []
  rw [changes, sinceReset_of_reset hreset fun e he => LogEntry.isReset_of_plain (hplain e he)]
  exact List.filterMap_eq_nil_iff.2 fun e he => LogEntry.change?_eq_none_of_plain (hplain e he)

theorem reset_restarted {keepLog : Bool} (h : s.reset keepLog now = .ok s') : Restarted s' := by
  obtain ⟨-, rfl⟩ := reset_ok h
  cases keepLog with
  | false => exact ⟨rfl, rfl⟩
  | true =>
    refine ⟨rfl, ?_⟩
    change changes (s.log ++ _ :: []) = []
    rw [changes, sinceReset_of_reset (resetEvent_isReset s.status now) (by simp)]
    rfl

/-! ### Calls -/

theorem idle_noted (s : Session) : Noted s s.idle := .of_eq rfl rfl

theorem deposited_noted {event : String} (h : Plain event) (record : Escrow.Record) (now : UInt64) :
    Noted s (s.deposited record event now) := by
  refine .touched (.promoted (.line h now ?_) now) now
  exact ⟨rfl, rfl⟩

theorem roundRecorded_noted {verb : String} (hv : verb ∈ ["produced", "received"])
    (record : Escrow.Record) (round : UInt8) (now : UInt64) :
    Noted s (s.roundRecorded record round verb now) := by
  refine .touched (.advanced (.line (roundEvent_plain hv round) now ?_) _ now) now
  exact ⟨rfl, rfl⟩

theorem keyed_noted (role : Role) (address : Address) (key : PublicKey) (now : UInt64) :
    Noted s (s.keyed role address key now) := by
  unfold keyed
  dsimp only
  split
  · refine .advanced (.line (ownKeyEvent_plain address key) now ?_) _ now
    exact ⟨rfl, rfl⟩
  · refine .line (ownKeyEvent_plain address key) now ?_
    exact ⟨rfl, rfl⟩

theorem judged_noted (verdict : Verdict) (now : UInt64) : Noted s (s.judged verdict now) := by
  cases verdict with
  | accepted =>
    refine .touched (.advanced (.line verifiedEvent_plain now ?_) _ now) now
    exact ⟨rfl, rfl⟩
  | rejected failure =>
    refine .touched (.line (rejectedEvent_plain failure) now ?_) now
    exact ⟨rfl, rfl⟩

/-- Each call either goes on with the log or begins anew. -/
theorem perform_noted {c : Call} {answer : Except Error c.Answer}
    (hs : s.perform now c = (answer, s')) : Noted s s' ∨ Restarted s' := by
  cases perform_outcome hs with
  | @begunAsSender schedule =>
    refine .inl (.touched (.advanced (.line (senderEvent_plain schedule s.fees) now ?_) _ now) now)
    exact ⟨rfl, rfl⟩
  | @begunInvited role sender schedule fees =>
    have hplain := invitedEvent_plain role sender schedule fees
    refine .inl (.touched (.advanced (.line hplain now ?_) _ now) now)
    exact ⟨rfl, rfl⟩
  | ownKey => exact .inl (((keyed_noted _ _ _ now).promoted now).touched now)
  | @peerKey _ role address key =>
    have hplain := learnedKeyEvent_plain role address key
    refine .inl (.touched (.promoted (.line hplain now ?_) now) now)
    exact ⟨rfl, rfl⟩
  | @multisig _ escrow =>
    have hplain := escrowEvent_plain escrow
    refine .inl (.touched (.promoted (.advanced (.line hplain now ?_) _ now) now) now)
    exact ⟨rfl, rfl⟩
  | @ownDeposit _ deposit => exact .inl (deposited_noted (ownDepositEvent_plain deposit) _ now)
  | @peerDeposit _ role deposit =>
    exact .inl (deposited_noted (learnedDepositEvent_plain role deposit) _ now)
  | accepted | rejected => exact .inl ((idle_noted s).trans (judged_noted _ now))
  | produced => exact .inl ((idle_noted s).trans (roundRecorded_noted (by decide) _ _ now))
  | received => exact .inl (roundRecorded_noted (by decide) _ _ now)
  | committed =>
    refine .inl (.touched (.advanced (.line broadcastEvent_plain now ?_) _ now) now)
    exact ⟨rfl, rfl⟩
  | @reclaimable role =>
    refine .inl (.touched (.line (reclaimableEvent_plain role) now ?_) now)
    exact ⟨rfl, rfl⟩
  | flagged =>
    refine .inl (.line (idleEvent_plain s.status) now ?_)
    exact ⟨rfl, rfl⟩
  | reset => exact .inr (reset_restarted (orKeepUnit_eq_ok.1 hs))
  | miscounted | forced => exact .inr (forceReset_restarted ..)
  | refused | ownKeyAgain | peerKeyAgain | claimedMultisig | claimedVerification | claimedSignature
  | unfit | claimedCommit | returned | ignored | flaggedBefore | peerSet =>
    exact .inl (.of_eq rfl rfl)

theorem Accounted.perform (h : Accounted s) (now : UInt64) (c : Call) :
    Accounted (s.perform now c).2 :=
  (perform_noted rfl).elim h.noted Restarted.accounted

theorem Accounted.after (h : Accounted s) (cs : Script) : Accounted (s.after cs) := by
  induction cs generalizing s with
  | nil => exact h
  | cons e cs ih => exact ih (h.perform e.1 e.2)

theorem fresh_accounted (id : SessionId) (fees : FeePolicy) (now : UInt64) :
    Accounted (fresh id fees now) := .refl _

/-- The reason of the forced reset that a call is or ends with. -/
def Call.forced? : (c : Call) → Except Error c.Answer → Option String
  | .forceReset reason, _ => some reason
  | .completeSignature .., .error (.fatal reason) => some reason
  | _, _ => none

/-- Such a call clears the session as it was before it. -/
theorem perform_forced {c : Call} {reason : String}
    (h : c.forced? (s.perform now c).1 = some reason) :
    ∃ t : Session, t.log = s.log ∧ t.status = s.status ∧ t.record = s.record ∧
      (s.perform now c).2 = t.forceReset reason now := by
  cases c with
  | forceReset =>
    obtain rfl := Option.some.inj h
    exact ⟨s, rfl, rfl, rfl, rfl⟩
  | completeSignature ticket candidate count =>
    rw [perform] at h ⊢
    rcases completeSignature_cases s ticket candidate count now with
      ⟨-, e⟩ | ⟨round, -, -, ⟨-, e⟩ | ⟨-, _, -, e⟩ | ⟨-, record, -, e⟩⟩ <;> rw [e] at h ⊢
    · cases h
    -- the ticket is spent before the session is cleared, which no line of the log shows
    · obtain rfl := Option.some.inj h
      exact ⟨s.idle, rfl, rfl, rfl, rfl⟩
    · cases h
    · cases h
  | _ => cases h

/-- What a forced reset leaves of a session: the log goes on with the reason of the reset and with
the deposits that have no way back, each named once and in signing order. -/
structure LeftBehind (s s' : Session) (reason : String) (now : UInt64) : Prop where
  status : s'.status = .notBegun
  order : s.record.unreclaimed.Sublist Role.all
  stranded : ∀ role, role ∈ s.record.unreclaimed ↔
    (s.record.deposit role).isSome ∧ s.record.reclaimable.get role = false
  log : ∃ lines,
    s'.log = s.log ++ ⟨now, "forced reset from " ++ s.status.name ++ ": " ++ reason⟩ :: lines ∧
      List.Forall₂ (Names s.record now) s.record.unreclaimed lines

theorem forceReset_leftBehind (s : Session) (reason : String) (now : UInt64) :
    LeftBehind s (s.forceReset reason now) reason now where
  status := by
    rw [forceReset_eq]
    rfl
  order := List.filter_sublist
  stranded role := by
    simp [Escrow.Record.unreclaimed, Role.mem_all]
  log := by
    rw [forceReset_eq]
    exact ⟨_, rfl, strandedEvents_names s.record now⟩

theorem perform_leftBehind {c : Call} {reason : String}
    (h : c.forced? (s.perform now c).1 = some reason) :
    LeftBehind s (s.perform now c).2 reason now := by
  obtain ⟨t, hlog, hstatus, hrecord, he⟩ := perform_forced h
  have hleft := forceReset_leftBehind t reason now
  rw [← he] at hleft
  exact {
    status := hleft.status
    order := hrecord ▸ hleft.order
    stranded := hrecord ▸ hleft.stranded
    log := by
      have h := hleft.log
      rwa [hlog, hstatus, hrecord] at h }

/-- In every session that calls lead to, the changes of status that the log notes since the last
reset lead from the beginning to the status of the session. A forced reset, whether it is called for
or a wallet brings it about, names every deposit without a way back. -/
theorem log_accounts (id : SessionId) (fees : FeePolicy) (start : UInt64) (cs : Script) :
    Accounted ((fresh id fees start).after cs) ∧
    ∀ now c reason, c.forced? (((fresh id fees start).after cs).perform now c).1 = some reason →
      LeftBehind ((fresh id fees start).after cs)
        (((fresh id fees start).after cs).perform now c).2 reason now :=
  ⟨(fresh_accounted id fees start).after cs, fun _ _ _ => perform_leftBehind⟩

namespace Miscounted

open Reclaimed Misused

/-- A Mixer has a way back for its own deposit and is about to sign. -/
def signing : Script :=
  setup ++ (5, .claimMultisig) :: funding ++
    [(11, .completeVerification ⟨.verifyDeposits, 8⟩ .accepted), (12, .learnRound 0 [0]),
      (13, .markReclaimable .mixer), (14, .claimSignature)]

/-- Its wallet returns two signatures where one was asked for. -/
def miscount : Call := .completeSignature ⟨.signature 1, 11⟩ [1] 2

end Miscounted

open Reclaimed Miscounted in
theorem log_accounts_of_miscount :
    Leads .notBegun (changes (start.after signing).log) .distTxRound0 ∧
    ∃ e e', ((start.after signing).perform 15 miscount).2.log = (start.after signing).log ++
        [⟨15, "forced reset from DistTxRound0: wallet returned 2 signature(s) for round 1"⟩, e, e'] ∧
      Names (start.after signing).record 15 .sender e ∧
      Names (start.after signing).record 15 .guarantor e' := by
  have hstatus : (start.after signing).status = .distTxRound0 := by decide +kernel
  have hroles : (start.after signing).record.unreclaimed = [.sender, .guarantor] := by
    decide +kernel
  have hforced : miscount.forced? ((start.after signing).perform 15 miscount).1 =
      some "wallet returned 2 signature(s) for round 1" := by decide +kernel
  have hlaw := log_accounts start.id .standard 0 signing
  have hstart : fresh start.id .standard 0 = start := rfl
  rw [hstart, Accounted, hstatus] at hlaw
  obtain ⟨hchain, hleft⟩ := hlaw
  obtain ⟨lines, hlog, hnames⟩ := (hleft 15 miscount _ hforced).log
  rw [hroles] at hnames
  obtain ⟨e, rest, hsender, hrest, rfl⟩ := List.forall₂_cons_left_iff.1 hnames
  obtain ⟨e', rest', hguarantor, hrest', rfl⟩ := List.forall₂_cons_left_iff.1 hrest
  obtain rfl := List.forall₂_nil_left_iff.1 hrest'
  refine ⟨hchain, e, e', ?_, hsender, hguarantor⟩
  have hline : "forced reset from " ++ (start.after signing).status.name ++ ": " ++
      "wallet returned 2 signature(s) for round 1" =
        "forced reset from DistTxRound0: wallet returned 2 signature(s) for round 1" := by
    decide +kernel
  rw [← hline]
  exact hlog

end Session

end EscrowMix
