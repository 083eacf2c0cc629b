import EscrowMix.Proofs.Node.Calls
import EscrowMix.Proofs.Node.Races
import EscrowMix.Proofs.Session.Broadcast

/-!
A distribution is broadcast once. The wallet is asked to broadcast nothing but the distribution of
the active session, when it has all its signatures, and while the wallet is asked, no command takes
the session away or gets another ticket for it. So a broadcast that succeeds completes the session,
and one that fails leaves it to the next.

    the session            waits for the wallet     what the wallet broadcast for it
    has its signatures     maybe                    nothing
    is complete            never                    its distribution
    anything else          never                    nothing
-/

namespace EscrowMix

open Node (Command Reply Request Wait Claims Proceeds)

namespace Directory

variable {d d' : Directory} {may : Slot → Session.Call → Prop}

/-- Calls other than the end of a broadcast leave the node with what it broadcast. -/
theorem Works.broadcast? (h : Works may d d') (hd : d.Sound)
    (hm : ∀ slot c, may slot c → c.isForced = false ∧ ∀ t, c ≠ .completeCommit t) (slot : Slot) :
    (d'.session slot).broadcast? = (d.session slot).broadcast? := by
  induction h with
  | refl => rfl
  | @call d' slot' _ _ _ _ h hmatched hc hs ih =>
    rw [← ih, session_update]
    split
    · next he =>
      obtain ⟨hforced, hcommit⟩ := hm _ _ hc
      rw [he.1]
      exact Session.perform_broadcast? ((h.sound hd).consistent slot') hmatched hforced hcommit hs
    · rfl
  | @opened d' h id now ih =>
    rw [← ih]
    rcases Nat.lt_trichotomy slot d'.sessions.length with hlt | rfl | hgt
    · rw [session_opened_of_lt hlt]
    · rw [session_opened_self, session_of_length_le (Nat.le_refl _)]
      rfl
    · rw [session_of_length_le (length_opened.symm ▸ hgt), session_of_length_le (Nat.le_of_lt hgt)]
  | closed _ ih => exact ih

end Directory

theorem Session.Call.isRoutine_keeps {c : Session.Call} (h : c.isRoutine = true) :
    c.isForced = false ∧ ∀ t, c ≠ .completeCommit t := by
  cases c with
  | forceReset | markReclaimable | completeCommit => cases h
  | _ => exact ⟨rfl, nofun⟩

/-! ### What the wallet is asked to broadcast -/

/-- Signing asks for no broadcast. -/
theorem SigningPlan.not_broadcast {plan : SigningPlan} {log : List Wallet.interface.Exchange}
    {rest : Program Wallet.interface (Except Error (Bytes × UInt8))} {tx : Bytes}
    (h : plan.run.run.After log rest) : rest.question? ≠ some (.broadcast tx) := by
  intro hq
  cases plan with
  | build inputs outputs constraints =>
    cases h with
    | refl => cases hq
    | @ask _ _ a _ _ h =>
      rcases a with e | built <;> cases h <;> cases hq
  | sign candidate key inputs outputs =>
    cases h with
    | refl => cases hq
    | @ask _ _ a _ _ h =>
      rcases a with e | isMatch
      · cases h
        cases hq
      · cases isMatch with
        | false =>
          cases h
          cases hq
        | true =>
          cases h with
          | refl => cases hq
          | ask h =>
            cases h
            cases hq

namespace Node

/-- The wallet is asked to broadcast the transaction. -/
inductive Wait.Sends : Wait → Bytes → Prop
  | commit {id : SessionId} {slot : Slot} {epoch : Nat} {tx : Bytes} :
    Sends (.commit id slot epoch tx (Wallet.ask (.broadcast tx))) tx
  | follow {slot : Slot} {epoch : Nat} {tx : Bytes} :
    Sends (.follow slot epoch tx (Wallet.ask (.broadcast tx))) tx

variable {n n' n₁ : Node} {c : Command} {w₀ w w' : Wait} {log : List interface.Exchange}
  {tx : Bytes} {q : Request} {a : q.Answer} {e : Error}
  {p : Program interface (Except Error Reply)}

theorem Wait.Sent.tx? (h : w.Sent tx) : w.tx? = some tx := by
  cases h <;> rfl

/-- What is asked in one question is asked until the answer comes. -/
theorem eq_ask_of_after {q : Wallet.Request} {log : List Wallet.interface.Exchange}
    {rest : Wallet.Asking q.Value} (h : (Wallet.ask q).run.After log rest.run)
    (ho : ∃ q next, rest.run = .ask q next) : rest = Wallet.ask q := by
  obtain ⟨q', next, ho⟩ := ho
  rw [ho] at h
  cases h with
  | refl => exact ho
  | ask h => cases h

/-- A command that is to broadcast waits for nothing else. -/
theorem Claims.sends (hc : Claims n c n₁ w₀) (hw : w₀.After log w) (ho : w.IsOpen)
    (ht : w.tx? = some tx) : w.Sends tx := by
  cases hw with
  | derive | verify | sign => cases ht
  | commit h =>
    cases hc with
    | commit =>
      cases ht
      cases eq_ask_of_after h ho
      exact .commit
  | follow h =>
    cases hc with
    | follow =>
      cases ht
      cases eq_ask_of_after h ho
      exact .follow

/-- A question about a broadcast comes from a command that is to broadcast just this. -/
theorem Claims.tx?_of_question (hc : Claims n c n₁ w₀) (hw : w₀.After log w) (ho : w.IsOpen)
    (hq : w.program.question? = some (.wallet (.broadcast tx))) : w.tx? = some tx := by
  cases hw with
  | derive h =>
    cases hc with
    | derive => cases Wallet.after_ask h (askWallet_question ho hq)
  | verify => exact absurd hq (askLedger_question ho)
  | sign h =>
    cases hc with
    | sign => exact absurd (askWallet_question ho hq) (SigningPlan.not_broadcast h)
  | commit h =>
    cases hc with
    | commit =>
      cases Wallet.after_ask h (askWallet_question ho hq)
      rfl
  | follow h =>
    cases hc with
    | follow =>
      cases Wallet.after_ask h (askWallet_question ho hq)
      rfl

/-- Who is to broadcast was told so, or was told of this very broadcast. -/
theorem Claims.command {id : SessionId} (hc : Claims n c n₁ w₀) (hw : w₀.After log w)
    (ht : w.tx? = some tx) (hid : c.Waits id w) :
    n.directory.active = some (id, w.slot) ∧ (c = .commit id ∨ c = .onCommit id tx) := by
  cases hw with
  | derive | verify | sign => cases ht
  | commit =>
    cases hc with
    | commit ha =>
      cases hid
      exact ⟨ha, .inl rfl⟩
  | follow =>
    cases hc with
    | follow ha hs =>
      cases ht
      cases hid
      obtain rfl := (Session.claimCommit_ok hs).2.2.2.1 _ rfl
      exact ⟨ha, .inr rfl⟩

/-- The wallet answers, and there is nothing left to ask. -/
theorem Wait.Sends.answered (h : w.Sends tx) (ha : w.Answered q a w') :
    ((⟨q, a⟩ : interface.Exchange) = ⟨.wallet (.broadcast tx), (.ok () : Except Wallet.Error Unit)⟩
        ∧ w'.Sent tx) ∨
      ∃ e, (⟨q, a⟩ : interface.Exchange) =
          ⟨.wallet (.broadcast tx), (.error e : Except Wallet.Error Unit)⟩ ∧
        ∃ e', w'.Failed e' := by
  cases h with
  | commit =>
    cases ha with
    | commit a =>
      rcases a with e | u
      · exact .inr ⟨e, rfl, _, .commit⟩
      · exact .inl ⟨rfl, .commit⟩
  | follow =>
    cases ha with
    | follow a =>
      rcases a with e | u
      · exact .inr ⟨e, rfl, _, .follow⟩
      · exact .inl ⟨rfl, .follow⟩

/-! ### While the wallet is asked -/

/-- The distribution that is to be broadcast is the one of the session, with all its signatures. -/
theorem Live.offers (hd : n.directory.Sound) (hl : n.Live w) (ht : w.tx? = some tx) :
    (n.directory.session w.slot).Offers tx where
  status := hl.status hd ht
  signedCount := by
    rw [(hd.consistent w.slot).record.signedCount, hl.status hd ht]
    rfl
  candidate := hl.candidate tx ht

/-- A broadcast that succeeded completes the session. -/
theorem Live.sent (hd : n.directory.Sound) (hl : n.Live w) (hw : w.Sent tx)
    (hp : Proceeds n w n' p) :
    ∃ s reply, n' = n.put w.slot s ∧ s.broadcast? = some tx ∧ p = .done (.ok reply) := by
  have hoffers := hl.offers hd hw.tx?
  have hh := hl.honours
  rcases hp with ⟨ho, -⟩ | ⟨r, hs, rfl⟩
  · cases hw <;> exact absurd ho nofun
  · cases hw with
    | commit =>
      cases hs with
      | @committed _ _ _ _ targets now _ _ hs =>
        obtain ⟨s', hs', hb⟩ := hoffers.completed hh now
        cases hs'.symm.trans hs
        exact ⟨_, _, rfl, hb, rfl⟩
      | released hf => cases hf
    | follow =>
      cases hs with
      | @followed _ _ _ now _ _ hs =>
        obtain ⟨s', hs', hb⟩ := hoffers.completed hh now
        cases hs'.symm.trans hs
        exact ⟨_, _, rfl, hb, rfl⟩
      | released hf => cases hf

/-- A broadcast that failed leaves the session as it was before the wallet was asked. -/
theorem Live.failed (hd : n.directory.Sound) (hl : n.Live w) (ht : w.tx? = some tx)
    (hw : w.Failed e) (hp : Proceeds n w n' p) :
    ∃ s, n' = n.put w.slot s ∧ s.Offers tx ∧ s.pending = none := by
  obtain ⟨hoffers, hidle⟩ := (hl.offers hd ht).released hl.honours
  rcases hp with ⟨ho, -⟩ | ⟨r, hs, rfl⟩
  · cases hw <;> exact absurd ho nofun
  · refine ⟨_, ?_, hoffers, hidle⟩
    cases hw with
    | derive | verify | sign => cases ht
    | commit | follow =>
      cases hs with
      | released => rfl

end Node

/-! ### What was broadcast -/

/-- What the wallet broadcast at this moment for the session in a slot, which is the active one. -/
def Moment.broadcast? (m : Moment) (slot : Slot) : Option Bytes :=
  match m.move with
  | .resume _ (.wallet (.broadcast tx)) (.ok ()) =>
    if m.before.active.map (·.2) = some slot then some tx else none
  | _ => none

/-- What the wallet broadcast for the session in a slot, in order. -/
def broadcasts (ms : List Moment) (slot : Slot) : List Bytes :=
  ms.filterMap (·.broadcast? slot)

section

variable {config : Config} {ms : List Moment} {m : Moment} {w : Process} {i : Nat} {c : Command}
  {wait wait' : Wait} {q : Request} {a : q.Answer} {tx : Bytes} {slot : Slot}

theorem Underway.sends (h : Underway ms i c wait) (ho : wait.IsOpen)
    (ht : wait.tx? = some tx) : wait.Sends tx := by
  obtain ⟨-, -, -, hc, hw⟩ := h
  exact hc.sends hw ho ht

theorem Underway.tx?_of_question (h : Underway ms i c wait) (ho : wait.IsOpen)
    (hq : wait.program.question? = some (.wallet (.broadcast tx))) : wait.tx? = some tx := by
  obtain ⟨-, -, -, hc, hw⟩ := h
  exact hc.tx?_of_question hw ho hq

/-- Any other moment broadcasts nothing. -/
theorem Moment.broadcast?_eq_none
    (h : ∀ i tx, m.move ≠ .resume i (.wallet (.broadcast tx)) (.ok ())) : m.broadcast? slot = none := by
  unfold broadcast?
  split
  · next tx he => exact absurd he (h _ tx)
  · rfl

/-- A job that waits for its wallet to broadcast has its turn, with the active session. -/
theorem Path.live (h : Path (.start config) ms w) {j : Job} (hj : w.jobs[i]? = some j)
    (hq : j.rest.question? = some (.wallet (.broadcast tx))) :
    ∃ id, ∃ wait : Wait, wait.IsOpen ∧ j.rest = wait.program ∧ Underway ms i j.command wait ∧
      wait.tx? = some tx ∧ j.command.Waits id wait ∧ w.active = some (id, wait.slot) ∧
      w.node.Live wait := by
  obtain ⟨owner, hjobs⟩ := h.takesTurns
  rcases hjobs i j hj with ⟨r, hdone⟩ | ⟨id, wait, ho, hp, hu, hw, hid, hturn⟩
  · rw [hdone] at hq
    cases hq
  · rw [hp] at hq
    have ht := hu.tx?_of_question ho hq
    rcases hturn with ⟨-, hl⟩ | ⟨-, hl⟩
    · obtain ⟨id', hactive⟩ := hl.active
      obtain rfl : id' = id := (h.sound.directory.active _ _ hactive).2.symm.trans hid
      exact ⟨id', wait, ho, hp, hu, ht, hw, hactive, hl⟩
    · cases ht.symm.trans hl.unsent

/-- The answer to whoever asked for a broadcast comes while its ticket is honoured, and ends the job. -/
theorem Moment.Happens.answered (hm : m.Happens) (h : Path (.start config) ms m.before)
    {a : Except Wallet.Error Unit} (hmove : m.move = .resume i (.wallet (.broadcast tx)) a) :
    ∃ wait p, m.before.node.Live wait ∧ wait.tx? = some tx ∧
      Proceeds m.before.node wait m.after.node p ∧ m.rest? = some p ∧
      ((a = .ok () ∧ wait.Sent tx) ∨ ∃ e e', a = .error e ∧ wait.Failed e') := by
  cases hm with
  | start => cases hmove
  | @resume n n' js i c q next _ ids p hj hg =>
    cases hmove
    obtain ⟨-, wait, ho, hp, hu, ht, -, -, hl⟩ := h.live hj rfl
    obtain ⟨wait', ha, hnext⟩ := Wait.answered_of_program ho hp.symm a
    rw [hnext] at hg
    refine ⟨wait', p, ha.live_iff.2 hl, ha.tx?_eq.trans ht, (Node.goes_wait hg).2,
      Moment.rest?_set hj, ?_⟩
    rcases (hu.sends ho ht).answered ha with ⟨he, hs⟩ | ⟨e, he, e', hf⟩
    · cases he
      exact .inl ⟨rfl, hs⟩
    · cases he
      exact .inr ⟨e, e', rfl, hf⟩

/-- Without a broadcast no session changes what it has of one. -/
theorem Moment.Happens.broadcast?_eq (hm : m.Happens) (h : Path (.start config) ms m.before)
    (hmove : ∀ i tx, m.move ≠ .resume i (.wallet (.broadcast tx)) (.ok ())) (slot : Slot) :
    (m.after.session slot).broadcast? = (m.before.session slot).broadcast? := by
  have hd := h.sound.directory
  have hr : ∀ (slot : Slot) (c : Session.Call), c.isRoutine = true →
      c.isForced = false ∧ ∀ t, c ≠ .completeCommit t := fun _ _ => Session.Call.isRoutine_keeps
  cases hm with
  | start hc hg =>
    exact ((Node.goes_start hc hg).works hr fun _ _ _ => ⟨rfl, nofun⟩).broadcast? hd
      (fun _ _ hc => hc) slot
  | @resume n n' js i c q next a ids p hj hg =>
    obtain ⟨owner, hjobs⟩ := h.takesTurns
    rcases hjobs i _ hj with ⟨r, hdone⟩ | ⟨id, wait, ho, hp, hu, -⟩
    · cases hdone
    obtain ⟨wait', ha, hnext⟩ := Wait.answered_of_program ho hp.symm a
    rw [hnext] at hg
    have hsent : ∀ tx, ¬wait'.Sent tx := by
      intro tx hs
      rcases (hu.sends ho (ha.tx?_eq.symm.trans hs.tx?)).answered ha with ⟨he, -⟩ | ⟨e, -, e', hf⟩
      · cases he
        exact hmove i tx rfl
      · cases hs <;> cases hf
    exact ((Node.goes_wait hg).2.works hr fun tx hs => absurd hs (hsent tx)).broadcast? hd
      (fun _ _ hc => hc) slot

/-- What a moment broadcasts is what a session gains. -/
theorem Moment.Happens.broadcast? (hm : m.Happens) (h : Path (.start config) ms m.before)
    (slot : Slot) : (m.after.session slot).broadcast?.toList =
      (m.before.session slot).broadcast?.toList ++ (m.broadcast? slot).toList := by
  by_cases hmove : ∃ i tx, m.move = .resume i (.wallet (.broadcast tx)) (.ok ())
  · obtain ⟨i, tx, hmove⟩ := hmove
    have hd := h.sound.directory
    obtain ⟨wait, p, hl, ht, hp, -, ⟨-, hs⟩ | ⟨e, e', he, -⟩⟩ := hm.answered h hmove
    · obtain ⟨s, reply, hn, hb, -⟩ := hl.sent hd hs hp
      obtain ⟨id, hactive⟩ := hl.active
      have hmoment : m.broadcast? slot = if some wait.slot = some slot then some tx else none := by
        have hslot : m.before.active.map (·.2) = some wait.slot := congrArg _ hactive
        rw [Moment.broadcast?, hmove]
        dsimp only
        rw [hslot]
      rw [Process.session, hn, Node.put_directory, hmoment]
      by_cases he : slot = wait.slot
      · subst he
        have hst : (m.before.session wait.slot).status ≠ .complete := by
          rw [Process.session, (hl.offers hd ht).status]
          decide
        rw [Directory.session_update_self (hl.lt hd), hb, Session.broadcast?_of_not_complete hst,
          if_pos rfl]
        rfl
      · rw [Directory.session_update_ne he, if_neg fun h => he (Option.some.inj h).symm,
          Option.toList_none, List.append_nil]
        rfl
    · cases he
  · simp only [not_exists] at hmove
    rw [hm.broadcast?_eq h hmove slot, Moment.broadcast?_eq_none hmove, Option.toList_none,
      List.append_nil]

/-- What was broadcast for a session is what it has of it. -/
theorem Path.broadcasts_eq (h : Path (.start config) ms w) (slot : Slot) :
    broadcasts ms slot = (w.session slot).broadcast?.toList := by
  induction h with
  | refl => rfl
  | @snoc ms m h hm ih =>
    have hlast : broadcasts [m] slot = (m.broadcast? slot).toList := by
      cases hb : m.broadcast? slot <;> simp [broadcasts, hb]
    rw [broadcasts, List.filterMap_append, ← broadcasts, ← broadcasts, ih, hlast,
      hm.broadcast? h slot]

/-- A commit that is told of another transaction than the distribution ends without a question. -/
theorem Moment.Happens.refused (hm : m.Happens) {id : SessionId} {final : Bytes}
    (hmove : m.move = .start (.onCommit id final))
    (hne : ∀ slot, m.before.active = some (id, slot) →
      (m.before.session slot).record.candidate ≠ some final) :
    ∃ r, m.rest? = some (.done r) := by
  cases hm with
  | resume => cases hmove
  | @start n n' js c ids p hc hg =>
    cases hmove
    rw [Moment.rest?_append]
    cases Node.goes_start hc hg with
    | claimed hc hp =>
      cases hc with
      | follow ha hs =>
        obtain ⟨-, -, hcandidate, hfinal, -⟩ := Session.claimCommit_ok hs
        obtain rfl := hfinal _ rfl
        exact absurd hcandidate (hne _ ha)
    | refused | looked | called | announced | unused | left => exact ⟨_, rfl⟩

end

/-- On every way of a node, its wallet is asked to broadcast a transaction only by a command that was
told to broadcast, or was told of this very transaction, while its session is the active one and has
this transaction as the distribution with both signatures. If the wallet succeeds, the session is
complete at once and the command succeeds; if it fails, the session is idle and offers the same
distribution again. For every session there is one broadcast at most, of the distribution that the
session still has, and there is one just if the session is complete. Whoever is told of the commit of
another transaction than the distribution ends without a question. -/
theorem Path.broadcasts_once {config : Config} {ms : List Moment} {w : Process}
    (h : Path (.start config) ms w) :
    (∀ i cmd tx, w.question? i = some (cmd, .wallet (.broadcast tx)) →
      ∃ id slot past claim during, ms = past ++ claim :: during ∧ claim.move = .start cmd ∧
        claim.job = i ∧ (cmd = .commit id ∨ cmd = .onCommit id tx) ∧
        claim.before.active = some (id, slot) ∧ w.active = some (id, slot) ∧
        (w.session slot).Offers tx) ∧
    (∀ m ∈ ms, ∀ i tx a, m.move = .resume i (.wallet (.broadcast tx)) a →
      ∃ id slot, m.before.active = some (id, slot) ∧
        (a = .ok () → (m.after.session slot).status = .complete ∧
          (m.after.session slot).record.candidate = some tx ∧
          ∃ reply, m.rest? = some (.done (.ok reply))) ∧
        ∀ e, a = .error e →
          (m.after.session slot).Offers tx ∧ (m.after.session slot).pending = none) ∧
    (∀ slot, (broadcasts ms slot).length ≤ 1 ∧
      ((w.session slot).status = .complete ↔ broadcasts ms slot ≠ []) ∧
      ∀ tx ∈ broadcasts ms slot, (w.session slot).record.candidate = some tx) ∧
    ∀ m ∈ ms, ∀ id final, m.move = .start (.onCommit id final) →
      (∀ slot, m.before.active = some (id, slot) →
        (m.before.session slot).record.candidate ≠ some final) →
      ∃ r, m.rest? = some (.done r) := by
  refine ⟨fun i cmd tx hq => ?_, fun m hmem i tx a hmove => ?_, fun slot => ?_,
    fun m hmem id final hmove hne => ?_⟩
  · obtain ⟨⟨cmd, rest⟩, hj, rfl, hrest⟩ := Process.question?_eq_some hq
    obtain ⟨id, wait, -, -, hu, ht, hid, hactive, hl⟩ := h.live hj hrest
    have hoffers := hl.offers h.sound.directory ht
    obtain @⟨past, during, claim, n₁, w₀, wait, rfl, hmove, hi, hc, hw⟩ := hu
    obtain ⟨hclaimed, hcmd⟩ := hc.command hw ht hid
    exact ⟨id, wait.slot, past, claim, during, rfl, hmove, (Moment.job_of_start hmove).trans hi, hcmd,
      hclaimed, hactive, hoffers⟩
  · obtain ⟨past, later, rfl⟩ := List.append_of_mem hmem
    obtain ⟨hpast, hm, -⟩ := h.split
    have hd := hpast.sound.directory
    obtain ⟨wait, p, hl, ht, hp, hrest, hanswer⟩ := hm.answered hpast hmove
    obtain ⟨id, hactive⟩ := hl.active
    have hself : ∀ {s}, m.after.node = m.before.node.put wait.slot s →
        m.after.session wait.slot = s := by
      intro s hn
      rw [Process.session, hn, Node.put_directory, Directory.session_update_self (hl.lt hd)]
    refine ⟨id, wait.slot, hactive, fun ha => ?_, fun e ha => ?_⟩
    · rcases hanswer with ⟨-, hs⟩ | ⟨e, e', he, -⟩
      · obtain ⟨s, reply, hn, hb, rfl⟩ := hl.sent hd hs hp
        obtain ⟨hst, hcandidate⟩ := Option.ite_none_right_eq_some.1 hb
        rw [hself hn]
        exact ⟨hst, hcandidate, reply, hrest⟩
      · cases ha.symm.trans he
    · rcases hanswer with ⟨he, -⟩ | ⟨e, e', -, hf⟩
      · cases ha.symm.trans he
      · obtain ⟨s, hn, hoffers, hidle⟩ := hl.failed hd ht hf hp
        rw [hself hn]
        exact ⟨hoffers, hidle⟩
  · have hsome : (w.session slot).broadcast?.isSome ↔ (w.session slot).status = .complete :=
      (h.sound.directory.consistent slot).isSome_broadcast?_iff
    rw [h.broadcasts_eq slot, ← hsome]
    cases hb : (w.session slot).broadcast? with
    | none => simp
    | some tx =>
      have hcandidate := Session.candidate_of_broadcast? hb
      simp [hcandidate]
  · obtain ⟨past, later, rfl⟩ := List.append_of_mem hmem
    exact h.split.2.1.refused hmove hne

/-! ### A broadcast that others get in the way of -/

namespace RacedBroadcast

open SigningMixer (sessionId)

/-- The wallet signs and broadcasts as well. -/
def circumstances : Circumstances :=
  { SigningMixer.circumstances with
    wallet
      | .sign candidate _ => .ok (2 :: candidate, 1)
      | .broadcast _ => .ok ()
      | q => SigningMixer.circumstances.wallet q }

/-- The Mixer signs, the Guarantor too, and the Mixer is to broadcast. While its wallet is asked, the
session is cancelled, and the commits of another transaction and of this one arrive. -/
def turns : List Turn :=
  SigningMixer.turns ++ [.answer 11, .tell (.onSignatureRound sessionId 2 [3]),
    .tell (.commit sessionId), .tell (.cancel sessionId), .tell (.onCommit sessionId [9]),
    .tell (.onCommit sessionId [3])]

/-- All that happens until the wallet answers. -/
def moments : List Moment := (Process.start .standard).play circumstances turns

/-- The node when the wallet answers. -/
def asked : Process := (Process.start .standard).afterAll moments

/-- The answer. -/
def answered : List Moment := asked.play circumstances [.answer 13]

/-- The node afterwards. -/
def sent : Process := asked.afterAll answered

end RacedBroadcast

open SigningMixer RacedBroadcast in
theorem Path.broadcasts_once_despite_cancel :
    asked.question? 13 = some (.commit sessionId, .wallet (.broadcast [3])) ∧
      (∃ slot, asked.active = some (sessionId, slot) ∧ (asked.session slot).Offers [3]) ∧
      broadcasts (RacedBroadcast.moments ++ answered) 0 = [[3]] ∧
      (sent.session 0).status = .complete ∧ (sent.session 0).record.candidate = some [3] := by
  have hq : asked.question? 13 = some (.commit sessionId, .wallet (.broadcast [3])) := by
    decide +kernel
  have hb : broadcasts (RacedBroadcast.moments ++ answered) 0 = [[3]] := by decide +kernel
  have hasked : Path (.start .standard) RacedBroadcast.moments asked := Process.play_path ..
  have hsent : Path (.start .standard) (RacedBroadcast.moments ++ answered) sent :=
    hasked.append (Process.play_path ..)
  obtain ⟨id, slot, -, -, -, -, -, -, hcmd, -, hactive, hoffers⟩ := hasked.broadcasts_once.1 13 _ _ hq
  obtain rfl : sessionId = id := by
    rcases hcmd with hcmd | hcmd <;> cases hcmd
    rfl
  obtain ⟨-, hcomplete, hcandidate⟩ := hsent.broadcasts_once.2.2.1 0
  rw [hb] at hcomplete hcandidate
  exact ⟨hq, ⟨slot, hactive, hoffers⟩, hb, hcomplete.2 nofun, hcandidate _ (List.mem_singleton.2 rfl)⟩

end EscrowMix
