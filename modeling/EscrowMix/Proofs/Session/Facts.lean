import EscrowMix.Message
import EscrowMix.Proofs.Session.Evolution

/-!
What the parties of a session tell each other. A fact is a message with data: a role's address and
key, its deposit, or the distribution after a round. Each is for one role to say, once. A session
holds the facts that it said and those that it heard, and every call leaves these alone, adds one,
or forgets all of them.
-/

namespace EscrowMix

/-- What a fact is about. -/
inductive Topic where
  /-- The address and the key of a role. -/
  | key (role : Role)
  /-- The deposit of a role. -/
  | deposit (role : Role)
  /-- The distribution after a round. -/
  | round (round : UInt8)
deriving DecidableEq

/-- The role that says it. -/
def Topic.owner? : Topic → Option Role
  | key role => some role
  | deposit role => some role
  | round n => Role.forRound? n

/-- The topic of a message that is a fact. -/
def PeerMessage.topic? : PeerMessage → Option Topic
  | .addressAndKey _ role _ _ => some (.key role)
  | .depositNotice _ role _ => some (.deposit role)
  | .signatureRound _ round _ => some (.round round)
  | _ => none

/-- A message without data that the parties have to agree on. -/
def PeerMessage.isNotice : PeerMessage → Bool
  | .commit .. | .cancel _ => true
  | _ => false

namespace Session

variable {s s' s'' : Session} {now : UInt64} {f : Option PeerMessage} {τ : Topic}
  {msg : PeerMessage}

/-- The fact that a session holds on a topic. Of the distributions it holds the last one. -/
def fact? (s : Session) : Topic → Option PeerMessage
  | .key role =>
    match s.parties.address role, s.parties.key role with
    | some address, some key => some (.addressAndKey s.id role address key)
    | _, _ => none
  | .deposit role => (s.record.deposit role).map (.depositNotice s.id role)
  | .round n =>
    if s.record.signedCount = n then s.record.candidate.map (.signatureRound s.id n) else none

/-- A session that has begun holds a fact. -/
def Holds (s : Session) (msg : PeerMessage) : Prop :=
  s.status ≠ .notBegun ∧ ∃ τ, s.fact? τ = some msg

/-- The topic is the session's own, and it said nothing about it yet. -/
def MaySay (s : Session) : Topic → Prop
  | .key role => s.role = some role ∧ s.parties.key role = none
  | .deposit role => s.role = some role ∧ s.record.deposit role = none
  | .round n => s.role = Role.forRound? n ∧ s.status < .afterRound n

theorem fact?_topic (h : s.fact? τ = some msg) : msg.topic? = some τ ∧ msg.sessionId = s.id := by
  cases τ with
  | key role =>
    simp only [fact?] at h
    split at h
    · cases h
      exact ⟨rfl, rfl⟩
    · cases h
  | deposit role =>
    obtain ⟨d, -, rfl⟩ := Option.map_eq_some_iff.1 h
    exact ⟨rfl, rfl⟩
  | round n =>
    obtain ⟨-, h⟩ := Option.ite_none_right_eq_some.1 h
    obtain ⟨c, -, rfl⟩ := Option.map_eq_some_iff.1 h
    exact ⟨rfl, rfl⟩

theorem MaySay.role_eq (h : s.MaySay τ) : s.role = τ.owner? := by
  cases τ <;> exact h.1

theorem fact?_key {role : Role} {a : Address} {k : PublicKey}
    (ha : s.parties.address role = some a) (hk : s.parties.key role = some k) :
    s.fact? (.key role) = some (.addressAndKey s.id role a k) := by
  simp only [fact?, ha, hk]

theorem fact?_deposit {role : Role} {d : Deposit} (h : s.record.deposit role = some d) :
    s.fact? (.deposit role) = some (.depositNotice s.id role d) := by
  simp only [fact?, h, Option.map_some]

theorem fact?_round {c : Bytes} (h : s.record.candidate = some c) :
    s.fact? (.round s.record.signedCount) =
      some (.signatureRound s.id s.record.signedCount c) := by
  simp only [fact?, h, if_true, Option.map_some]

/-- A session that has begun, later: the terms and the role are the same, and it holds at most one
more fact, on which nothing more is to be said. -/
structure Learns (s : Session) (f : Option PeerMessage) (s' : Session) : Prop where
  begun : s.status ≠ .notBegun
  id : s'.id = s.id
  role : s'.role = s.role
  schedule : s'.schedule = s.schedule
  fees : s'.fees = s.fees
  fact : ∀ τ msg, s'.fact? τ = some msg → s.fact? τ = some msg ∨ f = some msg
  maySay : ∀ τ, s'.MaySay τ → s.MaySay τ ∧ ∀ msg, f = some msg → msg.topic? ≠ some τ

theorem fact?_congr (hid : s'.id = s.id) (ha : ∀ r, s'.parties.address r = s.parties.address r)
    (hk : ∀ r, s'.parties.key r = s.parties.key r)
    (hd : ∀ r, s'.record.deposit r = s.record.deposit r)
    (hc : s'.record.candidate = s.record.candidate)
    (hn : s'.record.signedCount = s.record.signedCount) : s'.fact? = s.fact? := by
  funext τ
  cases τ with
  | key role => simp only [fact?, ha, hk, hid]
  | deposit role => simp only [fact?, hd, hid]
  | round round => simp only [fact?, hc, hn, hid]

/-- Whatever may still be said could be said before. -/
theorem Grows.maySay (h : Grows s s') (hst : s.status ≠ .notBegun) (hm : s'.MaySay τ) :
    s.MaySay τ := by
  cases τ with
  | key role =>
    refine ⟨(h.role hst).symm.trans hm.1, ?_⟩
    cases hk : s.parties.key role with
    | none => rfl
    | some k => exact absurd ((h.key role k hk).symm.trans hm.2) nofun
  | deposit role =>
    refine ⟨(h.role hst).symm.trans hm.1, ?_⟩
    cases hd : s.record.deposit role with
    | none => rfl
    | some d => exact absurd ((h.deposit role d hd).symm.trans hm.2) nofun
  | round n =>
    exact ⟨(h.role hst).symm.trans hm.1, Nat.lt_of_le_of_lt h.status hm.2⟩

/-- A growth with at most one more fact. -/
theorem Grows.learns (h : Grows s s') (hst : s.status ≠ .notBegun)
    (hf : ∀ τ msg, s'.fact? τ = some msg → s.fact? τ = some msg ∨ f = some msg)
    (hm : ∀ τ msg, f = some msg → msg.topic? = some τ → ¬s'.MaySay τ) : Learns s f s' where
  begun := hst
  id := h.id
  role := h.role hst
  schedule := h.schedule hst
  fees := h.fees hst
  fact := hf
  maySay τ hs := ⟨h.maySay hst hs, fun msg he ht => hm τ msg he ht hs⟩

/-- A growth without a new fact. -/
theorem Grows.learns_none (h : Grows s s') (hst : s.status ≠ .notBegun)
    (hf : s'.fact? = s.fact?) : Learns s none s' :=
  h.learns hst (fun _ _ he => .inl (hf ▸ he)) nofun

theorem Same.learns (h : Same s s') (hst : s.status ≠ .notBegun) : Learns s none s' :=
  h.grows.learns_none hst (fact?_congr h.id h.address h.key (fun _ => by rw [h.record])
    (by rw [h.record]) (by rw [h.record]))

theorem Same.thenLearns (h : Same s s') (h' : Learns s' f s'') : Learns s f s'' := by
  have hst : s.status ≠ .notBegun := h.status ▸ h'.begun
  have hl := h.learns hst
  refine ⟨hst, h'.id.trans h.id, h'.role.trans h.role, h'.schedule.trans h.schedule,
    h'.fees.trans h.fees, fun τ msg hf => ?_, fun τ hm => ?_⟩
  · refine (h'.fact τ msg hf).imp_left fun hf => ?_
    exact (hl.fact τ msg hf).resolve_right nofun
  · obtain ⟨hm, ht⟩ := h'.maySay τ hm
    exact ⟨(hl.maySay τ hm).1, ht⟩

/-- A growth with one more fact. -/
theorem Grows.learns_one (h : Grows s s') (hst : s.status ≠ .notBegun)
    (hone : s'.fact? τ = some msg)
    (hrest : ∀ τ' msg', τ' ≠ τ → s'.fact? τ' = some msg' → s.fact? τ' = some msg')
    (hm : ¬s'.MaySay τ) : Learns s (some msg) s' := by
  refine h.learns hst (fun τ' msg' hf => ?_) fun τ' msg' he ht => ?_
  · by_cases hτ : τ' = τ
    · subst hτ
      exact .inr (hone.symm.trans hf)
    · exact .inl (hrest τ' msg' hτ hf)
  · cases he
    cases ht.symm.trans (fact?_topic hone).1
    exact hm

/-! ### Calls -/

/-- No fact is added: they are all forgotten, or there is none that is new. -/
inductive Quiet (s s' : Session) : Prop
  | forgets (h : s'.status = .notBegun)
  | keeps (h : Learns s none s')

/-- What a call does with the facts of a session: it adds none, tells a new one, or hears one. -/
inductive Converses (s : Session) (heard : Option PeerMessage) (s' : Session) : Prop
  | quiet (h : Quiet s s')
  | tells {msg : PeerMessage} (τ : Topic) (hm : s.MaySay τ) (hone : s'.fact? τ = some msg)
      (h : Learns s (some msg) s')
  | hears {msg : PeerMessage} (hh : heard = some msg) (h : Learns s (some msg) s')

/-- An address and a key for a role without them. -/
theorem Grows.learns_key (h : Grows s s') (hst : s.status ≠ .notBegun) {role : Role} {a : Address}
    {k : PublicKey} (ha : ∀ r, s'.parties.address r = (s.parties.registered role a k).address r)
    (hk : ∀ r, s'.parties.key r = (s.parties.registered role a k).key r)
    (hr : s'.record = s.record) : s'.fact? (.key role) = some (.addressAndKey s.id role a k) ∧
      Learns s (some (.addressAndKey s.id role a k)) s' := by
  have hkey : s'.parties.key role = some k := by rw [hk, Registry.registered_key, if_pos rfl]
  have hone : s'.fact? (.key role) = some (.addressAndKey s.id role a k) := by
    rw [← h.id]
    exact fact?_key (by rw [ha, Registry.registered_address, if_pos rfl]) hkey
  refine ⟨hone, h.learns_one hst hone (fun τ' msg' hτ hf => ?_) fun hm => ?_⟩
  · rw [← hf]
    cases τ' with
    | key r =>
      have hne : r ≠ role := fun e => hτ (congrArg _ e)
      simp only [fact?, ha, hk, h.id, Registry.registered_address, Registry.registered_key,
        if_neg hne]
    | deposit r => simp only [fact?, hr, h.id]
    | round n => simp only [fact?, hr, h.id]
  · exact absurd (hkey.symm.trans hm.2) nofun

/-- A deposit for a role without one. -/
theorem Grows.learns_deposit (h : Grows s s') (hst : s.status ≠ .notBegun) {role : Role}
    {d : Deposit} (hp : s'.parties = s.parties) (hr : s'.record = s.record.deposited role d) :
    s'.fact? (.deposit role) = some (.depositNotice s.id role d) ∧
      Learns s (some (.depositNotice s.id role d)) s' := by
  have hd : s'.record.deposit role = some d := by
    rw [hr, Escrow.Record.deposited_deposit, if_pos rfl]
  have hone : s'.fact? (.deposit role) = some (.depositNotice s.id role d) := by
    rw [← h.id]
    exact fact?_deposit hd
  refine ⟨hone, h.learns_one hst hone (fun τ' msg' hτ hf => ?_) fun hm => ?_⟩
  · rw [← hf]
    cases τ' with
    | key r => simp only [fact?, hp, h.id]
    | deposit r =>
      have hne : r ≠ role := fun e => hτ (congrArg _ e)
      simp only [fact?, hr, h.id, Escrow.Record.deposited_deposit, if_neg hne]
    | round n =>
      simp only [fact?, hr, h.id, Escrow.Record.deposited_candidate,
        Escrow.Record.deposited_signedCount]
  · exact absurd (hd.symm.trans hm.2) nofun

/-- The distribution of a round that comes next. -/
theorem Grows.learns_round (h : Grows s s') (hst : s.status ≠ .notBegun) {n : UInt8} {c : Bytes}
    (hp : s'.parties = s.parties) (hr : s'.record = s.record.proposed c n)
    (hs : s'.status = .afterRound n) :
    s'.fact? (.round n) = some (.signatureRound s.id n c) ∧
      Learns s (some (.signatureRound s.id n c)) s' := by
  have hone : s'.fact? (.round n) = some (.signatureRound s.id n c) := by
    simp only [fact?, hr, h.id, Escrow.Record.proposed_signedCount,
      Escrow.Record.proposed_candidate, if_true, Option.map_some]
  refine ⟨hone, h.learns_one hst hone (fun τ' msg' hτ hf => ?_) fun hm => ?_⟩
  · cases τ' with
    | key r =>
      rw [← hf]
      simp only [fact?, hp, h.id]
    | deposit r =>
      rw [← hf]
      simp only [fact?, hr, h.id, Escrow.Record.proposed_deposit]
    | round n' =>
      -- an earlier distribution is no longer held
      have hne : n ≠ n' := fun e => hτ (congrArg _ e.symm)
      simp only [fact?, hr, Escrow.Record.proposed_signedCount, if_neg hne] at hf
      cases hf
  · exact Nat.lt_irrefl _ (hs ▸ hm.2)

theorem Same.quiet (h : Same s s') : Quiet s s' := by
  by_cases hst : s.status = .notBegun
  · exact .forgets (h.status.trans hst)
  · exact .keeps (h.learns hst)

theorem Quiet.refl (s : Session) : Quiet s s := (Same.refl s).quiet

/-- A growth in nothing that a fact is about. -/
theorem Grows.converses {heard : Option PeerMessage} (h : Grows s s') (hst : s.status ≠ .notBegun)
    (hf : s'.fact? = s.fact?) : Converses s heard s' :=
  .quiet (.keeps (h.learns_none hst hf))

/-- A call that brings nothing, whatever else there is to hear. -/
theorem Converses.anyway {heard : Option PeerMessage} (h : Converses s none s') :
    Converses s heard s' := by
  cases h with
  | quiet h => exact .quiet h
  | tells τ hm hone h => exact .tells τ hm hone h
  | hears hh => cases hh

theorem Same.thenQuiet (h : Same s s') (h' : Quiet s' s'') : Quiet s s'' := by
  cases h' with
  | forgets h' => exact .forgets h'
  | keeps h' => exact .keeps (h.thenLearns h')

/-- A call after a change that does not matter. -/
theorem Same.thenConverses {heard : Option PeerMessage} (h : Same s s')
    (h' : Converses s' heard s'') : Converses s heard s'' := by
  cases h' with
  | quiet h' => exact .quiet (h.thenQuiet h')
  | @tells msg τ hm hone h' =>
    have hst : s.status ≠ .notBegun := h.status ▸ h'.begun
    exact .tells τ (h.grows.maySay hst hm) hone (h.thenLearns h')
  | hears hh h' => exact .hears hh (h.thenLearns h')

theorem fact?_promoted (s : Session) (now : UInt64) :
    ((s.promoted now).touched now).fact? = s.fact? := by
  rw [promoted_eq]
  rfl

theorem Consistent.begun_of_role (h : Consistent s) {own : Role} (ho : s.role = some own) :
    s.status ≠ .notBegun := by
  intro e
  exact absurd (ho.symm.trans (h.parties.role_iff.2 e)) nofun

theorem Consistent.begun_of_awaits (h : Consistent s) {t : Transition} (hp : s.pending = some t) :
    s.status ≠ .notBegun := by
  intro e
  have ha := h.pending t hp
  cases t with
  | signature n =>
    rw [Awaits, e] at ha
    exact absurd ha.1 nofun
  | deriveMultisig | verifyDeposits | commit =>
    rw [Awaits, e] at ha
    cases ha

theorem setOwnKey_tells (h : Consistent s) {a : Address} {k : PublicKey} {news : Bool}
    (hs : s.setOwnKey a k now = .ok (news, s')) : Converses s none s' ∧
      ∃ own, s.role = some own ∧ s'.fact? (.key own) = some (.addressAndKey s.id own a k) := by
  have he : Evolves s True True s' := setOwnKey_evolves h hs
  obtain ⟨-, -, own, ho, ⟨-, -, hk, rfl⟩ | ⟨-, ha, hk, rfl⟩⟩ := setOwnKey_ok hs
  · have hst := h.begun_of_role ho
    have hp : (((s.keyed own a k now).promoted now).touched now).parties =
        s.parties.registered own a k := (promoted_parties ..).trans (keyed_parties ..)
    have hst' : (s.keyed own a k now).status ≠ .notBegun := by
      unfold keyed
      dsimp only
      split
      · nofun
      · exact hst
    have hg := he.grows ((Grows.promoted _ now).not_notBegun hst')
    obtain ⟨hone, hl⟩ := hg.learns_key hst (fun _ => by rw [hp]) (fun _ => by rw [hp])
      ((promoted_record ..).trans (keyed_record ..))
    exact ⟨.tells (.key own) ⟨ho, hk⟩ hone hl, own, ho, hone⟩
  · have hg := he.grows (h.begun_of_role ho)
    exact ⟨hg.converses (h.begun_of_role ho) rfl, own, ho, fact?_key ha hk⟩

theorem learnKey_hears {role : Role} {a : Address} {k : PublicKey} {peer : Option PeerId}
    {news : Bool} (hs : s.learnKey role a k peer now = .ok (news, s')) :
    Converses s (some (.addressAndKey s.id role a k)) s' := by
  have he : Evolves s True True s' := learnKey_evolves hs
  obtain ⟨-, hst, -, ⟨-, -, -, -, rfl⟩ | ⟨-, -, -, rfl⟩⟩ := learnKey_ok hs
  · have hp : (({ s.logged now (learnedKeyEvent role a k) with
        parties := introduced (s.parties.registered role a k) role peer }.promoted now).touched
          now).parties = introduced (s.parties.registered role a k) role peer :=
      promoted_parties ..
    have hg := he.grows ((Grows.promoted _ now).not_notBegun hst)
    refine .hears rfl (hg.learns_key hst (fun r => ?_) (fun r => ?_) (promoted_record ..)).2
    · rw [hp, introduced_address]
    · rw [hp, introduced_key]
  · exact (he.grows hst).converses hst rfl

/-- A deposit that is recorded in the midst of a session. -/
theorem deposited_learns (hst : s.status ≠ .notBegun) {role : Role} {d : Deposit}
    {record : Escrow.Record} (h : s.record.recordDeposit role d = .ok record) (event : String)
    (now : UInt64) : s.record.deposit role = none ∧
      (s.deposited record event now).fact? (.deposit role) = some (.depositNotice s.id role d) ∧
      Learns s (some (.depositNotice s.id role d)) (s.deposited record event now) := by
  have he : Evolves s True True (s.deposited record event now) := deposited_evolves h event now
  have hg := he.grows ((Grows.promoted _ now).not_notBegun hst)
  obtain ⟨hnone, -, rfl⟩ := Escrow.Record.recordDeposit_eq_ok.1 h
  exact ⟨hnone, hg.learns_deposit hst (promoted_parties ..) (promoted_record ..)⟩

theorem recordOwnDeposit_tells (h : Consistent s) {d : Deposit}
    (hs : s.recordOwnDeposit d now = .ok s') : Converses s none s' ∧
      ∃ own, s.role = some own ∧ s'.fact? (.deposit own) = some (.depositNotice s.id own d) := by
  obtain ⟨-, -, own, record, ho, hrec, rfl⟩ := recordOwnDeposit_ok hs
  obtain ⟨hnone, hone, hl⟩ := deposited_learns (h.begun_of_role ho) hrec (ownDepositEvent d) now
  exact ⟨.tells (.deposit own) ⟨ho, hnone⟩ hone hl, own, ho, hone⟩

theorem learnDeposit_hears (h : Consistent s) {role : Role} {d : Deposit}
    (hs : s.learnDeposit role d now = .ok s') :
    Converses s (some (.depositNotice s.id role d)) s' := by
  obtain ⟨-, -, ⟨own, ho, -⟩, record, hrec, rfl⟩ := learnDeposit_ok hs
  exact .hears rfl
    (deposited_learns (h.begun_of_role ho) hrec (learnedDepositEvent role d) now).2.2

theorem learnRound_hears (h : Consistent s) {n : UInt8} {c : Bytes}
    (hs : s.learnRound n c now = .ok s') : Converses s (some (.signatureRound s.id n c)) s' := by
  have he : Evolves s True True s' := learnRound_evolves hs
  obtain ⟨-, own, record, ho, -, -, -, hrec, rfl⟩ := learnRound_ok hs
  obtain ⟨-, rfl⟩ := Escrow.Record.setCandidate_eq_ok.1 hrec
  have hg := he.grows (afterRound_ne n)
  exact .hears rfl (hg.learns_round (h.begun_of_role ho) rfl rfl rfl).2

theorem completeSignature_tells (h : Consistent s) {ticket : Ticket} {candidate : Bytes}
    {count : UInt8} {answer : Except Error UInt8}
    (hs : s.completeSignature ticket candidate count now = (answer, s')) : Converses s none s' ∧
      ∀ n, answer = .ok n → s'.fact? (.round n) = some (.signatureRound s.id n candidate) := by
  rcases completeSignature_cases s ticket candidate count now with
    ⟨-, e⟩ | ⟨round, ht, hh, ⟨-, e⟩ | ⟨-, _, -, e⟩ | ⟨-, record, hrec, e⟩⟩
  · cases hs.symm.trans e
    exact ⟨.quiet (.refl s), nofun⟩
  · cases hs.symm.trans e
    rw [forceReset_eq]
    exact ⟨.quiet (.forgets rfl), nofun⟩
  · cases hs.symm.trans e
    exact ⟨(Grows.idle s).converses (h.begun_of_awaits (honours_iff.1 hh).1) rfl, nofun⟩
  · obtain ⟨rfl, rfl⟩ := Prod.mk.inj (hs.symm.trans e)
    have hst := h.begun_of_awaits (honours_iff.1 hh).1
    have ha : s.Awaits (.signature round) := h.awaits (honours_iff.1 hh).1 ht
    have he : Evolves s _ True _ := completeSignature_evolves h e
    obtain ⟨-, rfl⟩ := Escrow.Record.setCandidate_eq_ok.1 hrec
    obtain ⟨hone, hl⟩ := (he.grows (afterRound_ne round)).learns_round hst rfl rfl rfl
    refine ⟨.tells (.round round) ⟨ha.2.symm, lt_afterRound ha.1⟩ hone hl, fun n hn => ?_⟩
    cases hn
    exact hone

/-- The calls that begin a session. -/
def Call.begins : Call → Bool
  | .beginAsSender .. | .beginInvited .. => true
  | _ => false

/-- The fact that a call brings to the session with this identifier. -/
def Call.news? (id : SessionId) : Call → Option PeerMessage
  | .learnKey role address key _ => some (.addressAndKey id role address key)
  | .learnDeposit role deposit => some (.depositNotice id role deposit)
  | .learnRound round candidate => some (.signatureRound id round candidate)
  | _ => none

/-- Every call but a beginning adds at most one fact, and says only what it may say. -/
theorem perform_converses (h : Consistent s) {c : Call} (hc : c.IsMatched)
    (hb : c.begins = false) {answer : Except Error c.Answer}
    (hs : s.perform now c = (answer, s')) : Converses s (c.news? s.id) s' := by
  by_cases hst' : s'.status = .notBegun
  · exact .quiet (.forgets hst')
  have hg := (perform_evolves h hc hs).grows hst'
  cases perform_outcome hs with
  | refused | ignored | flaggedBefore => exact .quiet (.refl s)
  | begunAsSender | begunInvited => cases hb
  | ownKey | ownKeyAgain => exact (setOwnKey_tells h (orKeep_eq_ok.1 hs)).1
  | peerKey | peerKeyAgain => exact learnKey_hears (orKeep_eq_ok.1 hs)
  | multisig hp => exact hg.converses (h.begun_of_awaits hp) (fact?_promoted ..)
  | ownDeposit => exact (recordOwnDeposit_tells h (orKeepUnit_eq_ok.1 hs)).1
  | peerDeposit => exact learnDeposit_hears h (orKeepUnit_eq_ok.1 hs)
  | accepted hh | rejected hh | returned hh =>
    exact hg.converses (h.begun_of_awaits (honours_iff.1 hh).1) rfl
  | produced | miscounted | unfit => exact (completeSignature_tells h hs).1
  | received => exact learnRound_hears h (orKeepUnit_eq_ok.1 hs)
  | committed hp => exact hg.converses (h.begun_of_awaits hp) rfl
  | reset => exact absurd rfl hst'
  | forced =>
    rw [forceReset_eq] at hst'
    exact absurd rfl hst'
  | claimedMultisig | claimedVerification | claimedSignature | claimedCommit | reclaimable
  | flagged => exact hg.converses hst' rfl
  | peerSet => exact hg.converses hst' (fact?_congr rfl (by simp) (by simp) (fun _ => rfl) rfl rfl)

/-! ### Beginnings -/

/-- The invitations to a session. -/
def invitations (s : Session) : List PeerMessage :=
  [.invite s.id .mixer s.schedule s.fees, .invite s.id .guarantor s.schedule s.fees]

/-- A session that has just begun: it plays a role and holds no fact yet. -/
structure Begins (s : Session) (role : Role) : Prop where
  begun : s.status ≠ .notBegun
  role : s.role = some role
  fact : ∀ τ, s.fact? τ = none

theorem fact?_of_blank (hk : ∀ r, s.parties.key r = none) (hr : s.record = .empty) (τ : Topic) :
    s.fact? τ = none := by
  cases τ with
  | key role =>
    simp only [fact?, hk]
    cases s.parties.address role <;> rfl
  | deposit role =>
    rw [fact?, hr]
    cases role <;> rfl
  | round n =>
    rw [fact?, hr]
    exact ite_self none

/-- Only a session that has begun holds facts. -/
theorem Consistent.holds (h : Consistent s) (hf : s.fact? τ = some msg) : s.Holds msg := by
  refine ⟨fun e => ?_, τ, hf⟩
  obtain ⟨-, -, hparties, hrecord, -⟩ := h.blank e
  have hk : ∀ r, s.parties.key r = none := fun r => by rw [hparties, Registry.empty_key]
  exact absurd ((fact?_of_blank hk hrecord τ).symm.trans hf) nofun

theorem beginAsSender_begins (h : Consistent s) {schedule : Schedule}
    {constraints : CoinConstraints} {mixer guarantor : PeerId}
    (hs : s.beginAsSender schedule constraints mixer guarantor now = .ok s') :
    Begins s' .sender ∧ s'.id = s.id ∧ s'.schedule = schedule := by
  obtain ⟨-, hst, -, parties, hset, rfl⟩ := beginAsSender_ok hs
  obtain ⟨-, -, hparties, hrecord, -⟩ := h.blank hst
  rw [hparties, Registry.setRole_eq_ok rfl] at hset
  subst hset
  exact ⟨⟨nofun, rfl, fact?_of_blank (fun r => by cases r <;> rfl) hrecord⟩, rfl, rfl⟩

theorem beginInvited_begins (h : Consistent s) {role : Role} {sender : PeerId}
    {schedule : Schedule} {fees : FeePolicy} {constraints : CoinConstraints}
    (hs : s.beginInvited role sender schedule fees constraints now = .ok s') :
    Begins s' role ∧ s'.id = s.id ∧ s'.schedule = schedule ∧ s'.fees = fees := by
  obtain ⟨-, hst, -, -, parties, hset, rfl⟩ := beginInvited_ok hs
  obtain ⟨-, -, hparties, hrecord, -⟩ := h.blank hst
  rw [hparties, Registry.setRole_eq_ok rfl] at hset
  subst hset
  exact ⟨⟨nofun, rfl, fact?_of_blank (fun r => by cases r <;> rfl) hrecord⟩, rfl, rfl, rfl⟩

end Session

end EscrowMix
