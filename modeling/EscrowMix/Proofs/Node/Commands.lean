import EscrowMix.Proofs.Directory
import EscrowMix.Proofs.Node.Waiting

/-!
What every command does in its first segment: it is refused, or carried out, or it claims a
transition and waits for a collaborator. Whoever follows a node over time needs this relation and no
program.
-/

namespace EscrowMix.Node

/-- The messages of a reply. -/
def Reply.outbound : Reply → List Outbound
  | .messages out => out
  | .started _ out => out
  | _ => []

variable {n n' : Node} {ids : List SessionId}

/-- The session and the call of a command that is one call and has nothing to say. -/
def Command.single? : Command → Option (SessionId × Session.Call)
  | .attachPeer id role peer => some (id, .setPeer role peer)
  | .onAddressAndKey from_ id role address key =>
    some (id, .learnKey role address key (some from_))
  | .onDepositNotice id role deposit => some (id, .learnDeposit role deposit)
  | .onSignatureRound id round candidate => some (id, .learnRound round candidate)
  | .markReclaimable id role => some (id, .markReclaimable role)
  | _ => none

/-- The session and the call of a command that is one call, and what it tells the counterparts, given
the own role. -/
def Command.announced? : Command → Option (SessionId × Session.Call × (Role → PeerMessage))
  | .setOwnKey id address key =>
    some (id, .setOwnKey address key, fun role => .addressAndKey id role address key)
  | .recordOwnDeposit id deposit =>
    some (id, .recordOwnDeposit deposit, fun role => .depositNotice id role deposit)
  | _ => none

/-- A command that claims a transition of the active session, and then waits. -/
inductive Claims (n : Node) : Command → Node → Wait → Prop
  | derive {id : SessionId} {slot : Slot} {epoch : Nat} {keys : RoleMap PublicKey} {s : Session}
      (ha : n.directory.active = some (id, slot))
      (hs : (n.directory.session slot).claimMultisig = .ok ((⟨.deriveMultisig, epoch⟩, keys), s)) :
      Claims n (.deriveMultisig id) (n.put slot s)
        (.derive slot epoch (Wallet.ask (.deriveMultisig keys Escrow.signatureThreshold)))
  | verify {id : SessionId} {slot : Slot} {epoch : Nat} {plan : VerificationPlan} {s : Session}
      (ha : n.directory.active = some (id, slot))
      (hs : (n.directory.session slot).claimVerification n.config.minConfirmations =
        .ok ((⟨.verifyDeposits, epoch⟩, plan), s)) :
      Claims n (.verifyDeposits id) (n.put slot s) (.verify slot epoch plan.run)
  | sign {id : SessionId} {slot : Slot} {round : UInt8} {epoch : Nat} {plan : SigningPlan}
      {targets : Targets} {s : Session} (ha : n.directory.active = some (id, slot))
      (hs : (n.directory.session slot).claimSignature = .ok ((⟨.signature round, epoch⟩, plan), s)) :
      Claims n (.contributeSignature id) (n.put slot s)
        (.sign id slot round epoch targets plan.run)
  | commit {id : SessionId} {slot : Slot} {epoch : Nat} {tx : Bytes} {s : Session}
      (ha : n.directory.active = some (id, slot))
      (hs : (n.directory.session slot).claimCommit none = .ok ((⟨.commit, epoch⟩, tx), s)) :
      Claims n (.commit id) (n.put slot s) (.commit id slot epoch tx (Wallet.ask (.broadcast tx)))
  | follow {id : SessionId} {slot : Slot} {epoch : Nat} {tx final : Bytes} {s : Session}
      (ha : n.directory.active = some (id, slot))
      (hs : (n.directory.session slot).claimCommit (some final) = .ok ((⟨.commit, epoch⟩, tx), s)) :
      Claims n (.onCommit id final) (n.put slot s) (.follow slot epoch tx (Wallet.ask (.broadcast tx)))

/-- The node with another directory. -/
def withSessions (n : Node) (d : Directory) : Node := { n with directory := d }

/-- The first segment of a command. -/
inductive Starts (n : Node) : Command → List SessionId → Node →
    Program interface (Except Error Reply) → Prop
  /-- Refused, and nothing happened. -/
  | refused {c : Command} {ids : List SessionId} {e : Error} : Starts n c ids n (.done (.error e))
  /-- Nothing but a look. -/
  | looked {c : Command} {reply : Reply} (hr : reply.outbound = []) :
      Starts n c [] n (.done (.ok reply))
  | called {c : Command} {id : SessionId} {call : Session.Call} {slot : Slot} {now : UInt64}
      {answer : call.Answer} {s : Session} {reply : Reply} (hc : c.single? = some (id, call))
      (ha : n.directory.active = some (id, slot))
      (hs : (n.directory.session slot).perform now call = (.ok answer, s))
      (hr : reply.outbound = []) : Starts n c [] (n.put slot s) (.done (.ok reply))
  | announced {c : Command} {id : SessionId} {call : Session.Call} {message : Role → PeerMessage}
      {slot : Slot} {now : UInt64} {answer : call.Answer} {s : Session} {role : Role}
      {targets : Targets} (hc : c.announced? = some (id, call, message))
      (ha : n.directory.active = some (id, slot))
      (hrole : (n.directory.session slot).role = some role)
      (hs : (n.directory.session slot).perform now call = (.ok answer, s)) :
      Starts n c [] (n.put slot s) (.done (.ok (.messages (Outbound.toAll targets (message role)))))
  /-- A session was begun, and the two others are invited. -/
  | sent {destinations : List Address} {each : Amount} {constraints : CoinConstraints}
      {mixer guarantor : PeerId} {id : SessionId} {slot : Slot} {now : UInt64} {d : Directory}
      {schedule : Schedule} {s : Session} {evicted : Option Eviction} {out : List Outbound}
      (hschedule : Schedule.uniform destinations each = .ok schedule)
      (hd : n.directory.getOrCreate id now = .ok ((slot, evicted), d))
      (hs : (d.session slot).beginAsSender schedule constraints mixer guarantor now = .ok s)
      (hout : ∀ m ∈ out, ∃ id', m.message = .cancel id') :
      Starts n (.beginSend destinations each constraints mixer guarantor) [id]
        (n.withSessions (d.update slot s)) (.done (.ok (.started id
          (out ++ [⟨.mixer, mixer, .invite id .mixer schedule s.fees⟩,
            ⟨.guarantor, guarantor, .invite id .guarantor schedule s.fees⟩]))))
  /-- An invitation was taken. -/
  | joined {from_ : PeerId} {id : SessionId} {role : Role} {schedule : Schedule} {fees : FeePolicy}
      {constraints : CoinConstraints} {slot : Slot} {now : UInt64} {d : Directory} {s : Session}
      {evicted : Option Eviction} {out : List Outbound}
      (hoffer : n.config.checkOffer role fees = .ok ())
      (hd : n.directory.getOrCreate id now = .ok ((slot, evicted), d))
      (hs : (d.session slot).beginInvited role from_ schedule fees constraints now = .ok s)
      (hout : ∀ m ∈ out, ∃ id', m.message = .cancel id') :
      Starts n (.onInvite from_ id role schedule fees constraints) []
        (n.withSessions (d.update slot s)) (.done (.ok (.messages out)))
  /-- A session was enrolled but not begun; it is dropped if nobody else began it. -/
  | unused {c : Command} {ids : List SessionId} {id : SessionId} {slot : Slot} {now : UInt64}
      {d : Directory} {evicted : Option Eviction} {e : Error}
      (hd : n.directory.getOrCreate id now = .ok ((slot, evicted), d)) :
      Starts n c ids (n.withSessions
        (if (d.session slot).status = .notBegun then (d.drop id).2 else d)) (.done (.error e))
  /-- The active session was reset and dropped. -/
  | left {c : Command} {id : SessionId} {slot : Slot} {now : UInt64} {s : Session}
      {out : List Outbound} (ha : n.directory.active = some (id, slot))
      (hs : (n.directory.session slot).reset true now = .ok s)
      (hout : ∀ m ∈ out, ∃ id', m.message = .cancel id') :
      Starts n c [] (n.withSessions (n.directory.update slot s).closed)
        (.done (.ok (.messages out)))
  | swept {now : UInt64} {outcomes : List SweepOutcome} :
      Starts n .sweep [] (n.withSessions (n.directory.sweep now n.config.maxIdleSecs none).2)
        (.done (.ok (.swept outcomes)))
  | claimed {c : Command} {n₁ n' : Node} {w : Wait} {p : Program interface (Except Error Reply)}
      (hc : Claims n c n₁ w) (hp : Proceeds n₁ w n' p) : Starts n c [] n' p

variable {p : Program interface (Except Error Reply)}

theorem starts_refused {c : Command} {e : Error} (h : Fails n e ids n' p) : Starts n c ids n' p := by
  obtain ⟨rfl, rfl, rfl⟩ := h
  exact .refused

theorem put_session (n : Node) (slot : Slot) : n.put slot (n.directory.session slot) = n := by
  rw [put, Directory.update_session]

/-- A call that ends a command is refused without a trace, unless it takes a verdict. -/
theorem starts_refused_call {c : Command} {call : Session.Call} {slot : Slot} {now : UInt64}
    {s : Session} {e : Error} (hc : call.isVerdict = false)
    (hs : (n.directory.session slot).perform now call = (.error e, s))
    (h : Fails (n.put slot s) e ids n' p) : Starts n c ids n' p := by
  obtain rfl := Session.perform_error hc hs
  rw [put_session] at h
  exact starts_refused h

theorem starts_single {c : Command} {id : SessionId} {call : Session.Call} {reply : Reply}
    (hc : c.single? = some (id, call)) (hv : call.isVerdict = false) (hr : reply.outbound = [])
    (h : Goes n (Running.lookup id >>= fun slot => Running.call slot call >>= fun _ =>
      pure reply).run ids n' p) : Starts n c ids n' p := by
  rcases goes_lookup h with ⟨slot, hl, h⟩ | ⟨e, -, h⟩
  · have ha := Directory.lookup_eq_ok.1 hl
    obtain ⟨now, answer, s, hs, ⟨a, rfl, h⟩ | ⟨e, rfl, h⟩⟩ := goes_call h
    · obtain ⟨rfl, rfl, rfl⟩ := goes_pure h
      exact .called hc ha hs hr
    · exact starts_refused_call hv hs h
  · exact starts_refused h

/-- A call that every counterpart is told about needs all of them to be connected. -/
theorem announceOn_cases (n : Node) (env : Surroundings) (slot : Slot) (c : Session.Call) :
    (∃ e, (n.announceOn env slot c).answer = .error e ∧ (n.announceOn env slot c).node = n) ∨
    ∃ role targets answer s, (n.directory.session slot).role = some role ∧
      (n.directory.session slot).perform env.now c = (answer, s) ∧
      (n.announceOn env slot c).answer = answer.map (fun a => ((role, targets), a)) ∧
      (n.announceOn env slot c).node = n.put slot s := by
  unfold announceOn
  dsimp only
  split
  · exact .inl ⟨_, rfl, rfl⟩
  · next audience hau =>
    obtain ⟨role, targets⟩ := audience
    obtain ⟨_, -, hau⟩ := bind_eq_ok.1 hau
    obtain ⟨role', hrole, hau⟩ := bind_eq_ok.1 hau
    cases hau
    exact .inr ⟨role, targets, _, _, Session.localRole_eq_ok.1 hrole, rfl, rfl, rfl⟩

theorem goes_announce {α : Type} {slot : Slot} {c : Session.Call}
    {f : (Role × Targets) × c.Answer → Running α} {p : Program interface (Except Error α)}
    (h : Goes n (Running.step (.announce slot c) rfl >>= f).run ids n' p) :
    (∃ e, Fails n e ids n' p) ∨
    ∃ role targets now answer s, (n.directory.session slot).role = some role ∧
      (n.directory.session slot).perform now c = (answer, s) ∧
      ((∃ a, answer = .ok a ∧ Goes (n.put slot s) (f ((role, targets), a)).run ids n' p) ∨
        ∃ e, answer = .error e ∧ Fails (n.put slot s) e ids n' p) := by
  obtain ⟨env, h⟩ := goes_refusable h
  rcases announceOn_cases n env slot c with ⟨e, he, hn⟩ | ⟨role, targets, answer, s, hr, hs, ha, hn⟩
  · rcases h with ⟨a, h, -⟩ | ⟨e', -, h⟩
    · cases he.symm.trans h
    · have h : Fails (n.announceOn env slot c).node e' ids n' p := h
      rw [hn] at h
      exact .inl ⟨e', h⟩
  · refine .inr ⟨role, targets, env.now, answer, s, hr, hs, ?_⟩
    rw [← hn]
    rcases h with ⟨a, h, hg⟩ | ⟨e, h, hg⟩
    · have h := ha.symm.trans h
      rcases answer with e | a'
      · cases h
      · cases h
        exact .inl ⟨a', rfl, hg⟩
    · have h := ha.symm.trans h
      rcases answer with e' | a'
      · exact .inr ⟨e', rfl, Except.error.inj h ▸ hg⟩
      · cases h

theorem starts_announced {c : Command} {id : SessionId} {call : Session.Call}
    {message : Role → PeerMessage} (hc : c.announced? = some (id, call, message))
    (hv : call.isVerdict = false)
    (h : Goes n (Running.lookup id >>= fun slot => Running.step (.announce slot call) rfl >>=
      fun a => pure (.messages (Outbound.toAll a.1.2 (message a.1.1)))).run ids n' p) :
    Starts n c ids n' p := by
  rcases goes_lookup h with ⟨slot, hl, h⟩ | ⟨e, -, h⟩
  · have ha := Directory.lookup_eq_ok.1 hl
    rcases goes_announce h with ⟨e, h⟩ | ⟨role, targets, now, answer, s, hr, hs,
      ⟨a, rfl, h⟩ | ⟨e, rfl, h⟩⟩
    · exact starts_refused h
    · obtain ⟨rfl, rfl, rfl⟩ := goes_pure h
      exact .announced hc ha hr hs
    · exact starts_refused_call hv hs h
  · exact starts_refused h

/-! ### Each command -/

theorem starts_deriveMultisig {id : SessionId}
    (h : Goes n (deriveMultisig id).run ids n' p) : Starts n (.deriveMultisig id) ids n' p := by
  rcases goes_lookup h with ⟨slot, hl, h⟩ | ⟨e, -, h⟩
  · have ha := Directory.lookup_eq_ok.1 hl
    obtain ⟨now, answer, s, hs, ⟨⟨ticket, keys⟩, rfl, h⟩ | ⟨e, rfl, h⟩⟩ := goes_call h
    · have hs := Session.orKeep_eq_ok.1 hs
      obtain ⟨-, -, -, rfl, -⟩ := Session.claimMultisig_ok hs
      obtain ⟨rfl, hp⟩ := goes_wait (w := .derive slot _ _) h
      exact .claimed (.derive ha hs) hp
    · exact starts_refused_call rfl hs h
  · exact starts_refused h

theorem starts_verifyDeposits {id : SessionId}
    (h : Goes n (verifyDeposits id n.config).run ids n' p) :
    Starts n (.verifyDeposits id) ids n' p := by
  rcases goes_lookup h with ⟨slot, hl, h⟩ | ⟨e, -, h⟩
  · have ha := Directory.lookup_eq_ok.1 hl
    obtain ⟨now, answer, s, hs, ⟨⟨ticket, plan⟩, rfl, h⟩ | ⟨e, rfl, h⟩⟩ := goes_call h
    · have hs := Session.orKeep_eq_ok.1 hs
      obtain ⟨-, -, -, -, -, rfl, -⟩ := Session.claimVerification_ok hs
      obtain ⟨rfl, hp⟩ := goes_wait (w := .verify slot _ _) h
      exact .claimed (.verify ha hs) hp
    · exact starts_refused_call rfl hs h
  · exact starts_refused h

theorem starts_contributeSignature {id : SessionId}
    (h : Goes n (contributeSignature id).run ids n' p) :
    Starts n (.contributeSignature id) ids n' p := by
  rcases goes_lookup h with ⟨slot, hl, h⟩ | ⟨e, -, h⟩
  · have ha := Directory.lookup_eq_ok.1 hl
    rcases goes_announce h with ⟨e, h⟩ | ⟨role, targets, now, answer, s, -, hs,
      ⟨⟨ticket, plan⟩, rfl, h⟩ | ⟨e, rfl, h⟩⟩
    · exact starts_refused h
    · have hs := Session.orKeep_eq_ok.1 hs
      obtain ⟨-, own, round, _, _, -, -, -, -, -, -, rfl, -⟩ := Session.claimSignature_ok hs
      obtain ⟨rfl, hp⟩ := goes_wait (w := .sign id slot round _ targets _) h
      exact .claimed (.sign ha hs) hp
    · exact starts_refused_call rfl hs h
  · exact starts_refused h

theorem starts_commit {id : SessionId} (h : Goes n (commit id).run ids n' p) :
    Starts n (.commit id) ids n' p := by
  rcases goes_lookup h with ⟨slot, hl, h⟩ | ⟨e, -, h⟩
  · have ha := Directory.lookup_eq_ok.1 hl
    obtain ⟨now, answer, s, hs, ⟨⟨ticket, tx⟩, rfl, h⟩ | ⟨e, rfl, h⟩⟩ := goes_call (goes_assoc h)
    · have hs := Session.orKeep_eq_ok.1 hs
      obtain ⟨-, -, -, -, rfl, -⟩ := Session.claimCommit_ok hs
      obtain ⟨rfl, hp⟩ := goes_wait (w := .commit id slot _ tx _) (goes_assoc h)
      exact .claimed (.commit ha hs) hp
    · exact starts_refused_call rfl hs h
  · exact starts_refused h

theorem starts_onCommit {id : SessionId} {final : Bytes}
    (h : Goes n (onCommit id final).run ids n' p) : Starts n (.onCommit id final) ids n' p := by
  rcases goes_lookup h with ⟨slot, hl, h⟩ | ⟨e, -, h⟩
  · have ha := Directory.lookup_eq_ok.1 hl
    obtain ⟨env, h⟩ := goes_ask h
    have h : Goes n (if (n.directory.session slot).status = .complete then
        if (n.directory.session slot).record.candidate = some final then
          pure (.messages [])
        else throw broadcastDiffers
      else broadcast slot (some final) >>= fun _ => pure (.messages [])).run ids n' p := h
    split at h
    · split at h
      · obtain ⟨rfl, rfl, rfl⟩ := goes_pure h
        exact .looked rfl
      · exact starts_refused (goes_throw h)
    · obtain ⟨now, answer, s, hs, ⟨⟨ticket, tx⟩, rfl, h⟩ | ⟨e, rfl, h⟩⟩ := goes_call (goes_assoc h)
      · have hs := Session.orKeep_eq_ok.1 hs
        obtain ⟨-, -, -, -, rfl, -⟩ := Session.claimCommit_ok hs
        obtain ⟨rfl, hp⟩ := goes_wait (w := .follow slot _ tx _) (goes_assoc h)
        exact .claimed (.follow ha hs) hp
      · exact starts_refused_call rfl hs h
  · exact starts_refused h

/-- The active session is dropped once it was reset. -/
theorem drop_update {d : Directory} {id : SessionId} {slot : Slot} {s : Session}
    (ha : d.active = some (id, slot)) : ((d.update slot s).drop id).2 = (d.update slot s).closed := by
  rcases Directory.drop_cases (d.update slot s) id with ⟨-, h⟩ | ⟨h, -⟩
  · exact h
  · simp [Directory.activeId, ha] at h

theorem goes_abandon {α : Type} {slot : Slot} {f : Targets → Running α}
    {p : Program interface (Except Error α)}
    (h : Goes n (Running.step (.abandon slot) rfl >>= f).run ids n' p) :
    ∃ targets now answer s, (n.directory.session slot).perform now (.reset true) = (answer, s) ∧
      ((answer = .ok () ∧ Goes (n.put slot s) (f targets).run ids n' p) ∨
        ∃ e, answer = .error e ∧ Fails (n.put slot s) e ids n' p) := by
  obtain ⟨env, h⟩ := goes_refusable h
  refine ⟨reachable env (n.directory.session slot).counterparts, env.now, _, _, rfl, ?_⟩
  have h : (∃ a, ((n.callOn env.now slot (.reset true)).answer.1.map fun _ =>
        reachable env (n.directory.session slot).counterparts) = .ok a ∧
        Goes (n.callOn env.now slot (.reset true)).node (f a).run ids n' p) ∨
      ∃ e, ((n.callOn env.now slot (.reset true)).answer.1.map fun _ =>
        reachable env (n.directory.session slot).counterparts) = .error e ∧
        Fails (n.callOn env.now slot (.reset true)).node e ids n' p := h
  cases ha : (n.callOn env.now slot (.reset true)).answer.1 with
  | error e =>
    rw [ha] at h
    rcases h with ⟨a, h, -⟩ | ⟨e', h, hg⟩
    · cases h
    · cases h
      exact .inr ⟨e, ha, hg⟩
  | ok u =>
    rw [ha] at h
    rcases h with ⟨a, h, hg⟩ | ⟨e', h, -⟩
    · cases h
      exact .inl ⟨ha, hg⟩
    · cases h

/-- The end of a command that resets the active session and drops it. -/
theorem starts_left {c : Command} {id : SessionId} {slot : Slot} {now : UInt64} {s : Session}
    {out : List Outbound} (ha : n.directory.active = some (id, slot))
    (hs : (n.directory.session slot).perform now (.reset true) = (.ok (), s))
    (hout : ∀ m ∈ out, ∃ id', m.message = .cancel id')
    (h : Goes (n.put slot s) (Running.ask (.step (.drop id)) >>= fun _ =>
      pure (.messages out)).run ids n' p) : Starts n c ids n' p := by
  obtain ⟨env, h⟩ := goes_ask h
  obtain ⟨rfl, rfl, rfl⟩ := goes_pure h
  have hnode : ((n.put slot s).perform env (.drop id)).node =
      n.withSessions (n.directory.update slot s).closed :=
    congrArg n.withSessions (drop_update ha)
  rw [hnode]
  exact .left ha (Session.orKeepUnit_eq_ok.1 hs) hout

theorem starts_cancel {id : SessionId} (h : Goes n (cancel id).run ids n' p) :
    Starts n (.cancel id) ids n' p := by
  rcases goes_lookup h with ⟨slot, hl, h⟩ | ⟨e, -, h⟩
  · have ha := Directory.lookup_eq_ok.1 hl
    obtain ⟨targets, now, answer, s, hs, ⟨rfl, h⟩ | ⟨e, rfl, h⟩⟩ := goes_abandon h
    · refine starts_left ha hs (fun m hm => ?_) h
      obtain ⟨target, -, rfl⟩ := List.mem_map.1 hm
      exact ⟨id, rfl⟩
    · exact starts_refused_call rfl hs h
  · exact starts_refused h

theorem starts_onCancel {id : SessionId} (h : Goes n (onCancel id).run ids n' p) :
    Starts n (.onCancel id) ids n' p := by
  rcases goes_lookup h with ⟨slot, hl, h⟩ | ⟨e, -, h⟩
  · have ha := Directory.lookup_eq_ok.1 hl
    obtain ⟨now, answer, s, hs, ⟨u, rfl, h⟩ | ⟨e, rfl, h⟩⟩ := goes_call h
    · refine starts_left ha hs ?_ h
      exact nofun
    · exact starts_refused_call rfl hs h
  · exact starts_refused h

theorem starts_sweep (h : Goes n sweep.run ids n' p) : Starts n .sweep ids n' p := by
  obtain ⟨now, h⟩ := goes_clock h
  obtain ⟨env, h⟩ := goes_step h
  have h := goes_recordSweep _ h
  obtain ⟨rfl, rfl, rfl⟩ := goes_pure h
  exact .swept

theorem starts_requiredCoins {id : SessionId} {role : Option Role}
    (h : Goes n (requiredCoins id role).run ids n' p) :
    Starts n (.requiredCoins id role) ids n' p := by
  rcases goes_lookup h with ⟨slot, -, h⟩ | ⟨e, -, h⟩
  · obtain ⟨env, h⟩ := goes_ask h
    rcases goes_orFail h with ⟨a, -, h⟩ | ⟨e, -, h⟩
    · obtain ⟨rfl, rfl, rfl⟩ := goes_pure h
      exact .looked rfl
    · exact starts_refused h
  · exact starts_refused h

theorem starts_status {id : SessionId} (h : Goes n (status id).run ids n' p) :
    Starts n (.status id) ids n' p := by
  rcases goes_lookup h with ⟨slot, -, h⟩ | ⟨e, -, h⟩
  · obtain ⟨env, h⟩ := goes_ask h
    obtain ⟨rfl, rfl, rfl⟩ := goes_pure h
    exact .looked rfl
  · exact starts_refused h

/-- A session is enrolled, and who is told about a replaced one is told that it was cancelled. -/
theorem goes_enroll {α : Type} {id : SessionId} {now : UInt64}
    {f : Slot × Option Eviction → List Outbound → Running α}
    {p : Program interface (Except Error α)}
    (h : Goes n (Running.step (.enroll id now) rfl >>= fun a => evict a.2 >>=
      fun out => f a out).run ids n' p) :
    (∃ e, Fails n e ids n' p) ∨
    ∃ slot evicted d out, n.directory.getOrCreate id now = .ok ((slot, evicted), d) ∧
      (∀ m ∈ out, ∃ id', m.message = .cancel id') ∧
      Goes (n.withSessions d) (f (slot, evicted) out).run ids n' p := by
  obtain ⟨env, h⟩ := goes_refusable h
  cases hd : n.directory.getOrCreate id now with
  | error e =>
    have hp : n.perform env (.enroll id now) = n.unchanged (.error e) := congrArg n.enrolled hd
    rcases h with ⟨a, h, -⟩ | ⟨e', -, h⟩
    · rw [hp] at h
      cases h
    · rw [hp] at h
      exact .inl ⟨e', h⟩
  | ok r =>
    obtain ⟨⟨slot, evicted⟩, d⟩ := r
    have hp : n.perform env (.enroll id now) = n.withDirectory (.ok (slot, evicted)) d :=
      congrArg n.enrolled hd
    rcases h with ⟨a, ha, h⟩ | ⟨e', h, -⟩
    · rw [hp] at ha h
      cases ha
      obtain ⟨out, hout, h⟩ := goes_evict h
      exact .inr ⟨slot, evicted, d, out, rfl, hout, h⟩
    · rw [hp] at h
      cases h

/-- The end of a command whose session did not begin. -/
theorem starts_unused {c : Command} {id : SessionId} {slot : Slot} {now : UInt64} {d : Directory}
    {evicted : Option Eviction} {e : Error} {ids' : List SessionId}
    (hd : n.directory.getOrCreate id now = .ok ((slot, evicted), d))
    (h : Goes (n.withSessions d) (discardIfUnused slot id >>= fun _ => throw e).run ids n' p) :
    Starts n c ids' n' p := by
  obtain ⟨env, h⟩ := goes_step h
  have h : Goes (n.withSessions d) ((if (d.session slot).status = .notBegun then
      Running.ask (.step (.drop id)) else pure ()) >>= fun _ => throw e).run ids n' p := h
  have hu : Starts n c ids' (n.withSessions
      (if (d.session slot).status = .notBegun then (d.drop id).2 else d)) (.done (.error e)) :=
    .unused hd
  by_cases hst : (d.session slot).status = .notBegun
  · rw [if_pos hst] at h hu
    obtain ⟨env, h⟩ := goes_ask h
    obtain ⟨rfl, rfl, rfl⟩ := goes_throw h
    exact hu
  · rw [if_neg hst] at h hu
    obtain ⟨rfl, rfl, rfl⟩ := goes_throw h
    exact hu

/-- A call at a time read before. -/
theorem goes_callAt {α : Type} {slot : Slot} {now : UInt64} {c : Session.Call}
    {f : Except Error c.Answer × Session → Running α} {p : Program interface (Except Error α)}
    (h : Goes n (Running.ask (.step (.call slot (some now) c)) >>= f).run ids n' p) :
    ∃ answer s, (n.directory.session slot).perform now c = (answer, s) ∧
      Goes (n.put slot s) (f (answer, s)).run ids n' p := by
  obtain ⟨env, h⟩ := goes_step h
  exact ⟨_, _, rfl, h⟩

theorem starts_beginSend {destinations : List Address} {each : Amount}
    {constraints : CoinConstraints} {mixer guarantor : PeerId}
    (h : Goes n (beginSend destinations each constraints mixer guarantor).run ids n' p) :
    Starts n (.beginSend destinations each constraints mixer guarantor) ids n' p := by
  rcases goes_orFail h with ⟨schedule, hschedule, h⟩ | ⟨e, -, h⟩
  · rcases goes_check h with ⟨-, h⟩ | ⟨-, h⟩
    · rcases goes_ensureConnected h with h | ⟨e, h⟩
      · rcases goes_ensureConnected h with h | ⟨e, h⟩
        · obtain ⟨id, ids', hids, h⟩ := goes_freshId h
          obtain ⟨now, h⟩ := goes_clock h
          rcases goes_enroll h with ⟨e, rfl, rfl, rfl⟩ | ⟨slot, evicted, d, out, hd, hout, h⟩
          · exact .refused
          · obtain ⟨answer, s, hs, h⟩ := goes_callAt h
            subst hids
            rcases answer with e | u
            · obtain rfl := Session.orKeepUnit_error hs
              have h : Goes (n.withSessions d) (discardIfUnused slot id >>= fun _ =>
                throw e).run ids' n' p := Directory.update_session (d := d) ▸ h
              exact starts_unused hd h
            · obtain ⟨rfl, rfl, rfl⟩ := goes_pure h
              exact .sent (mapError_eq_ok.1 hschedule) hd (Session.orKeepUnit_eq_ok.1 hs) hout
        · exact starts_refused h
      · exact starts_refused h
    · exact starts_refused h
  · exact starts_refused h

theorem starts_onInvite {from_ : PeerId} {id : SessionId} {role : Role} {schedule : Schedule}
    {fees : FeePolicy} {constraints : CoinConstraints}
    (h : Goes n (onInvite from_ id role schedule fees constraints n.config).run ids n' p) :
    Starts n (.onInvite from_ id role schedule fees constraints) ids n' p := by
  rcases goes_ensureConnected h with h | ⟨e, h⟩
  · rcases goes_check h with ⟨-, h⟩ | ⟨-, h⟩
    · rcases goes_check h with ⟨-, h⟩ | ⟨-, h⟩
      · rcases goes_orFail h with ⟨u, hoffer, h⟩ | ⟨e, -, h⟩
        · obtain ⟨now, h⟩ := goes_clock h
          rcases goes_enroll h with ⟨e, h⟩ | ⟨slot, evicted, d, out, hd, hout, h⟩
          · exact starts_refused h
          · obtain ⟨answer, s, hs, h⟩ := goes_callAt h
            rcases answer with e | u
            · obtain rfl := Session.orKeepUnit_error hs
              have h : Goes (n.withSessions d) (discardIfUnused slot id >>= fun _ =>
                throw e).run ids n' p := Directory.update_session (d := d) ▸ h
              exact starts_unused hd h
            · obtain ⟨env, h⟩ := goes_ask h
              obtain ⟨rfl, rfl, rfl⟩ := goes_pure h
              exact .joined (mapError_eq_ok.1 hoffer) hd (Session.orKeepUnit_eq_ok.1 hs) hout
        · exact starts_refused h
      · exact starts_refused h
    · exact starts_refused h
  · exact starts_refused h

/-- Every first segment is one of these; only a restored session can come from elsewhere. -/
theorem goes_start {c : Command} (hc : c ≠ .restore)
    (h : Goes n (c.program n.config) ids n' p) : Starts n c ids n' p := by
  cases c with
  | beginSend => exact starts_beginSend h
  | onInvite => exact starts_onInvite h
  | attachPeer => exact starts_single rfl rfl rfl h
  | setOwnKey => exact starts_announced rfl rfl h
  | onAddressAndKey => exact starts_single rfl rfl rfl h
  | deriveMultisig => exact starts_deriveMultisig h
  | recordOwnDeposit => exact starts_announced rfl rfl h
  | onDepositNotice => exact starts_single rfl rfl rfl h
  | verifyDeposits => exact starts_verifyDeposits h
  | contributeSignature => exact starts_contributeSignature h
  | onSignatureRound => exact starts_single rfl rfl rfl h
  | commit => exact starts_commit h
  | onCommit => exact starts_onCommit h
  | markReclaimable => exact starts_single rfl rfl rfl h
  | cancel => exact starts_cancel h
  | onCancel => exact starts_onCancel h
  | sweep => exact starts_sweep h
  | restore => exact absurd rfl hc
  | requiredCoins => exact starts_requiredCoins h
  | status => exact starts_status h

end EscrowMix.Node
