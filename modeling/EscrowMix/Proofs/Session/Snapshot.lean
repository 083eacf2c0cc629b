import EscrowMix.Proofs.Codec
import EscrowMix.Proofs.Session.Consistent
import EscrowMix.Session.Snapshot

/-!
A session and its written form. A session whose status and data agree is read back without its
connections, if its addresses are in the form that reading gives them and its schedule is one that
reading accepts; and as long as no other address is known, only the schedule can stand in the way.
-/

namespace EscrowMix

open Codec (Takes Refuses ReadsBack takes_pure readsBack_uint16 readsBack_uint64 readsBack_bool
  readsBack_list readsBack_option readsBack_fixedBytes)

theorem LogEntry.readsBack {e : LogEntry} (h : Codec.IsWritable e.event) : ReadsBack e :=
  (readsBack_uint64 e.time).bind ((Codec.readsBack_string h).last (takes_pure e))

namespace Session

/-- Every sequence in the session is so short that four bytes hold its length. -/
structure IsWritable (s : Session) : Prop where
  schedule : s.schedule.IsWritable
  constraints : s.constraints.bytes.length < UInt32.size
  escrow : ∀ m, s.escrow = some m →
    Codec.IsWritable m.address.text ∧ m.script.bytes.length < UInt32.size
  parties : ∀ role a, s.parties.address role = some a → Codec.IsWritable a.text
  candidate : ∀ tx, s.record.candidate = some tx → tx.length < UInt32.size
  deposits : ∀ role d, s.record.deposit role = some d → d.script.bytes.length < UInt32.size
  log : s.log.length < UInt32.size
  events : ∀ e ∈ s.log, Codec.IsWritable e.event

/-- The schedule is valid, and all addresses in the session are as `Address.parse` gives them. -/
structure IsCanonical (s : Session) : Prop where
  valid : s.schedule.Valid
  schedule : s.schedule.IsCanonical
  escrow : ∀ m, s.escrow = some m → m.address.Canonical
  parties : ∀ role a, s.parties.address role = some a → a.Canonical

/-- There are three roles to look at. -/
theorem isWritable_iff (s : Session) : s.IsWritable ↔
    s.schedule.IsWritable ∧ s.constraints.bytes.length < UInt32.size ∧
    (∀ m ∈ s.escrow, Codec.IsWritable m.address.text ∧ m.script.bytes.length < UInt32.size) ∧
    (∀ role ∈ Role.all, ∀ a ∈ s.parties.address role, Codec.IsWritable a.text) ∧
    (∀ tx ∈ s.record.candidate, tx.length < UInt32.size) ∧
    (∀ role ∈ Role.all, ∀ d ∈ s.record.deposit role, d.script.bytes.length < UInt32.size) ∧
    s.log.length < UInt32.size ∧ ∀ e ∈ s.log, Codec.IsWritable e.event := by
  constructor
  · exact fun h => ⟨h.schedule, h.constraints, h.escrow, fun role _ => h.parties role, h.candidate,
      fun role _ => h.deposits role, h.log, h.events⟩
  · rintro ⟨hs, hc, he, hp, ht, hd, hl, hv⟩
    exact ⟨hs, hc, he, fun role => hp role role.mem_all, ht, fun role => hd role role.mem_all, hl,
      hv⟩

instance (s : Session) : Decidable s.IsWritable := decidable_of_iff' _ s.isWritable_iff

theorem isCanonical_iff (s : Session) : s.IsCanonical ↔
    s.schedule.Valid ∧ s.schedule.IsCanonical ∧ (∀ m ∈ s.escrow, m.address.Canonical) ∧
    ∀ role ∈ Role.all, ∀ a ∈ s.parties.address role, a.Canonical :=
  ⟨fun h => ⟨h.valid, h.schedule, h.escrow, fun role _ => h.parties role⟩,
    fun ⟨hv, hs, he, hp⟩ => ⟨hv, hs, he, fun role => hp role role.mem_all⟩⟩

instance (s : Session) : Decidable s.IsCanonical := decidable_of_iff' _ s.isCanonical_iff

variable {s : Session}

/-- The parts of a snapshot. -/
theorem toSnapshot_eq (s : Session) : s.toSnapshot =
    Codec.encode magic ++ (Codec.encode snapshotVersion ++ (Codec.encode s.id ++
      (Codec.encode s.status ++ (Codec.encode s.lastActivity ++ (Codec.encode s.schedule ++
      (Codec.encode s.constraints ++ (Codec.encode s.fees ++ (Codec.encode s.escrow ++
      (Codec.encode s.parties ++ (Codec.encode s.record ++ (Codec.encode s.escrowFailure ++
      (Codec.encode s.needsIntervention ++ Codec.encode s.log)))))))))))) := by
  simp only [← List.append_assoc]
  rfl

/-- Connections, the epoch and an outstanding transition are not written. -/
theorem toSnapshot_resumed (s : Session) : s.resumed.toSnapshot = s.toSnapshot := by
  rw [toSnapshot_eq, toSnapshot_eq]
  rfl

theorem Consistent.checkRead (h : s.Consistent) : s.checkRead = .ok () := by
  have he : ¬(Status.multisigAddr ≤ s.status ∧ s.escrow.isNone) := by
    rintro ⟨hst, hnone⟩
    have hsome := h.escrow.2 hst
    rw [Option.isNone_iff_eq_none.1 hnone] at hsome
    cases hsome
  have hr : ¬(Status.reserved ≤ s.status ∧ s.role.isNone) := by
    rintro ⟨hst, hnone⟩
    have hbegun : s.status ≠ .notBegun := fun hst' => by
      rw [hst'] at hst
      exact absurd hst (by decide)
    obtain ⟨own, ho⟩ := h.exists_role hbegun
    rw [ho] at hnone
    cases hnone
  rw [Session.checkRead, if_neg he, if_neg hr]

theorem Consistent.signedCount_le (h : s.Consistent) :
    s.record.signedCount ≤ Escrow.signatureThreshold := by
  rw [h.record.signedCount]
  cases s.status <;> decide

theorem takes_checked (h : s.checkRead = .ok ()) :
    Takes (match s.checkRead with
      | .ok () => pure s
      | .error e => Codec.fail e) [] s := by
  rw [h]
  exact takes_pure s

/-- What is read for a snapshot. -/
theorem takes (h : s.Consistent) (hw : s.IsWritable) (hschedule : s.schedule.IsReadable)
    (hescrow : ∀ m, s.escrow = some m → m.address.Canonical)
    (hparties : ∀ role a, s.parties.address role = some a → a.Canonical) :
    Takes Codec.read s.toSnapshot { s.resumed with schedule := s.schedule.trimmed } := by
  rw [toSnapshot_eq]
  refine (readsBack_fixedBytes magic).bind ?_
  rw [if_neg (not_not_intro rfl)]
  refine (readsBack_uint16 snapshotVersion).bind ?_
  rw [if_neg (not_not_intro rfl)]
  refine s.id.readsBack.bind (s.status.readsBack.bind ((readsBack_uint64 _).bind ?_))
  refine (Schedule.takes hw.schedule hschedule).bind ?_
  refine (CoinConstraints.readsBack hw.constraints).bind (s.fees.readsBack.bind ?_)
  refine (readsBack_option fun m hm => Multisig.readsBack (hescrow m hm) (hw.escrow m hm).1
    (hw.escrow m hm).2).bind ?_
  refine (Registry.takes fun role a ha => ⟨hparties role a ha, hw.parties role a ha⟩).bind ?_
  refine (Escrow.Record.readsBack h.signedCount_le hw.candidate hw.deposits).bind ?_
  refine (readsBack_option fun f _ => f.readsBack).bind ((readsBack_bool _).bind ?_)
  refine (readsBack_list hw.log fun e he => LogEntry.readsBack (hw.events e he)).last ?_
  exact takes_checked (s := { s.resumed with schedule := s.schedule.trimmed }) h.checkRead

/-- A schedule that is not read stands in the way. -/
theorem refuses (hw : s.IsWritable) (hschedule : ¬s.schedule.IsReadable) :
    Refuses (Codec.read : Codec.Reader Session) s.toSnapshot := by
  rw [toSnapshot_eq]
  refine (readsBack_fixedBytes magic).bind_refuses ?_
  rw [if_neg (not_not_intro rfl)]
  refine (readsBack_uint16 snapshotVersion).bind_refuses ?_
  rw [if_neg (not_not_intro rfl)]
  refine s.id.readsBack.bind_refuses (s.status.readsBack.bind_refuses ?_)
  exact (readsBack_uint64 _).bind_refuses (Schedule.refuses hw.schedule hschedule).bind

/-- A session comes back as it was, but for what is never written. -/
theorem ofSnapshot_toSnapshot (h : s.Consistent) (hw : s.IsWritable) (hc : s.IsCanonical) :
    ofSnapshot s.toSnapshot = .ok s.resumed := by
  have ht := takes h hw (hc.schedule.isReadable hc.valid) hc.escrow hc.parties
  rw [hc.schedule.trimmed_eq] at ht
  exact mapError_eq_ok.2 ht.decode

/-- As long as no other address is known, it is the schedule that decides. -/
theorem ofSnapshot_isOk_iff (h : s.Consistent) (hw : s.IsWritable) (hescrow : s.escrow = none)
    (hparties : ∀ role, s.parties.address role = none) :
    (ofSnapshot s.toSnapshot).isOk = true ↔ s.schedule.IsReadable := by
  by_cases hschedule : s.schedule.IsReadable
  · have ht := takes h hw hschedule (by simp [hescrow]) (by simp [hparties])
    have hok := mapError_eq_ok (f := EscrowMix.Error.codec).2 ht.decode
    simp [ofSnapshot, hok, hschedule, Except.isOk, Except.toBool]
  · obtain ⟨e, he⟩ := (refuses hw hschedule).decode
    have herror : ofSnapshot s.toSnapshot = .error (.codec e) := by
      rw [ofSnapshot, he]
      rfl
    simp [herror, hschedule, Except.isOk, Except.toBool]

/-! ### Calls keep a session canonical -/

/-- What the call brings is canonical. -/
def Call.IsCanonical : Call → Prop
  | .beginAsSender schedule .. | .beginInvited _ _ schedule .. =>
    schedule.Valid ∧ schedule.IsCanonical
  | .setOwnKey address _ | .learnKey _ address .. => address.Canonical
  | .completeMultisig _ escrow => escrow.address.Canonical
  | _ => True

variable {s' : Session} {now : UInt64} {c : Call}

theorem fresh_canonical (id : SessionId) (fees : FeePolicy) (now : UInt64) :
    (fresh id fees now).IsCanonical where
  valid := (by decide : Schedule.empty.Valid)
  schedule := nofun
  escrow := nofun
  parties role a ha := by simp [fresh] at ha

theorem IsCanonical.of_eq (h : s.IsCanonical) (hs : s'.schedule = s.schedule)
    (he : s'.escrow = s.escrow) (hp : ∀ role, s'.parties.address role = s.parties.address role) :
    s'.IsCanonical where
  valid := hs ▸ h.valid
  schedule := hs ▸ h.schedule
  escrow m hm := h.escrow m (he ▸ hm)
  parties role a ha := h.parties role a (hp role ▸ ha)

/-- A session with other terms and with no other address. -/
theorem IsCanonical.begun (h : s.IsCanonical) (hv : s'.schedule.Valid)
    (hs : s'.schedule.IsCanonical) (he : s'.escrow = s.escrow)
    (hp : ∀ role, s'.parties.address role = s.parties.address role) : s'.IsCanonical where
  valid := hv
  schedule := hs
  escrow m hm := h.escrow m (he ▸ hm)
  parties role a ha := h.parties role a (hp role ▸ ha)

theorem IsCanonical.registered (h : s.IsCanonical) {role : Role} {a : Address} {k : PublicKey}
    (ha : a.Canonical) (hs : s'.schedule = s.schedule) (he : s'.escrow = s.escrow)
    (hp : ∀ r, s'.parties.address r = (s.parties.registered role a k).address r) :
    s'.IsCanonical where
  valid := hs ▸ h.valid
  schedule := hs ▸ h.schedule
  escrow m hm := h.escrow m (he ▸ hm)
  parties r a' ha' := by
    rw [hp, Registry.registered_address] at ha'
    split at ha'
    · cases ha'
      exact ha
    · exact h.parties r a' ha'

theorem cleared_canonical (s : Session) (keepLog : Bool) (now : UInt64) :
    (s.cleared keepLog now).IsCanonical :=
  (fresh_canonical s.id s.fees now).of_eq rfl rfl fun _ => rfl

theorem promoted_canonical (h : s.IsCanonical) (now : UInt64) :
    ((s.promoted now).touched now).IsCanonical := by
  rw [promoted_eq]
  exact h.of_eq rfl rfl fun _ => rfl

theorem keyed_canonical (h : s.IsCanonical) {a : Address} (ha : a.Canonical) (role : Role)
    (k : PublicKey) (now : UInt64) : (s.keyed role a k now).IsCanonical := by
  unfold keyed
  dsimp only
  split <;> exact h.registered ha rfl rfl fun _ => rfl

theorem setRole_address {g g' : Registry} {role : Role} (h : g.setRole role = .ok g') (r : Role) :
    g'.address r = g.address r := by
  unfold Registry.setRole at h
  split at h
  · split at h <;> cases h
    rfl
  · cases h
    rfl

theorem Outcome.canonical {c : Call} {answer : Except Error c.Answer}
    (ho : Outcome s now c answer s') (h : s.IsCanonical) (hc : c.IsCanonical) : s'.IsCanonical := by
  cases ho with
  | @begunAsSender _ _ mixer guarantor parties _ _ _ hset =>
    refine h.begun hc.1 hc.2 rfl fun r => ?_
    have hpeers := Registry.setPeer_address (parties.setPeer .mixer mixer) .guarantor guarantor r
    exact hpeers.trans ((Registry.setPeer_address _ _ _ _).trans (setRole_address hset r))
  | @begunInvited _ sender _ _ _ parties _ _ _ _ hset =>
    refine h.begun hc.1 hc.2 rfl fun r => ?_
    exact (Registry.setPeer_address parties .sender sender r).trans (setRole_address hset r)
  | ownKey => exact promoted_canonical (keyed_canonical h hc _ _ now) now
  | @peerKey _ role _ _ peer =>
    refine promoted_canonical ?_ now
    exact h.registered hc rfl rfl fun r => introduced_address _ role peer r
  | multisig =>
    refine promoted_canonical ?_ now
    exact ⟨h.valid, h.schedule, fun m' hm' => Option.some.inj hm' ▸ hc, h.parties⟩
  | ownDeposit | peerDeposit =>
    refine promoted_canonical ?_ now
    exact h.of_eq rfl rfl fun _ => rfl
  | reset => exact cleared_canonical _ _ _
  | miscounted | forced =>
    rw [forceReset_eq]
    exact cleared_canonical _ _ _
  | peerSet => exact h.of_eq rfl rfl fun r => Registry.setPeer_address _ _ _ r
  | _ => exact h.of_eq rfl rfl fun _ => rfl

/-- A call that brings nothing but what is canonical leaves a session canonical. -/
theorem perform_canonical (h : s.IsCanonical) (now : UInt64) (c : Call) (hc : c.IsCanonical) :
    (s.perform now c).2.IsCanonical :=
  (perform_outcome rfl).canonical h hc

end Session

end EscrowMix
