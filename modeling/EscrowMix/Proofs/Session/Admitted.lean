import EscrowMix.Proofs.Session.Written

/-!
Which sessions come out of bytes. Reading looks at the status in two places only: there must be a
role once the session has begun and an escrow past the exchange of keys. Beyond that each part is
judged on its own, as its type demands. So a session is admitted just when it keeps these few rules,
whether or not calls could have led to it: deposits, keys and the distribution may be missing
although the status says that they are there.
-/

namespace EscrowMix

open Codec

namespace Session

variable {s : Session}

theorem checkRead_eq_ok {u : Unit} : s.checkRead = .ok u ↔
    (.multisigAddr ≤ s.status → s.escrow.isSome) ∧ (.reserved ≤ s.status → s.role.isSome) := by
  unfold checkRead
  split
  · next h => simp [h.1, Option.isNone_iff_eq_none.1 h.2]
  · next he =>
    split
    · next h => simp [h.1, Option.isNone_iff_eq_none.1 h.2]
    · next hr =>
      simp only [not_and, Option.isNone_iff_eq_none, ← ne_eq, ← Option.isSome_iff_ne_none] at he hr
      exact iff_of_true rfl ⟨he, hr⟩

/-- The session can be read from bytes. -/
structure Admitted (s : Session) : Prop where
  role : .reserved ≤ s.status → s.role.isSome
  escrow : .multisigAddr ≤ s.status → s.escrow.isSome
  signedCount : s.record.signedCount ≤ Escrow.signatureThreshold
  canonical : s.IsCanonical
  writable : s.IsWritable
  peers : ∀ role, s.parties.peer role = none
  epoch : s.epoch = 0
  pending : s.pending = none

theorem Fits.admitted (h : s.Fits) : s.Admitted where
  role := (checkRead_eq_ok.1 h.checked).2
  escrow := (checkRead_eq_ok.1 h.checked).1
  signedCount := h.record.signedCount
  canonical := {
    valid := h.schedule.valid
    schedule := h.schedule.canonical
    escrow := fun m hm => (h.escrow m hm).address.canonical
    parties := fun role a ha => ((h.parties role).address a ha).canonical }
  writable := {
    schedule := h.schedule.writable
    constraints := h.constraints
    escrow := fun m hm => ⟨(h.escrow m hm).address.writable, (h.escrow m hm).script⟩
    parties := fun role a ha => ((h.parties role).address a ha).writable
    candidate := h.record.candidate
    deposits := h.record.deposits
    log := h.log.1
    events := h.log.2 }
  peers role := (h.parties role).peer
  epoch := h.epoch
  pending := h.pending

theorem Admitted.fits (h : s.Admitted) : s.Fits where
  schedule := ⟨h.writable.schedule, h.canonical.valid, h.canonical.schedule⟩
  constraints := h.writable.constraints
  escrow m hm := ⟨⟨h.canonical.escrow m hm, (h.writable.escrow m hm).1⟩, (h.writable.escrow m hm).2⟩
  parties role := ⟨fun a ha => ⟨h.canonical.parties role a ha, h.writable.parties role a ha⟩,
    h.peers role⟩
  record := ⟨h.signedCount, h.writable.candidate, h.writable.deposits⟩
  log := ⟨h.writable.log, h.writable.events⟩
  checked := checkRead_eq_ok.2 ⟨h.escrow, h.role⟩
  epoch := h.epoch
  pending := h.pending

theorem ofSnapshot_eq_ok {bs : Bytes} :
    ofSnapshot bs = .ok s ↔ (decode bs : Except Codec.Error Session) = .ok s :=
  mapError_eq_ok

/-- Every session that comes out of bytes is admitted, and every session that is admitted comes out
of the bytes written for it. -/
theorem snapshot_admits (s : Session) :
    (∀ bs, ofSnapshot bs = .ok s → s.Admitted) ∧ (s.Admitted → ofSnapshot s.toSnapshot = .ok s) := by
  refine ⟨fun bs h => ?_, fun h => ?_⟩
  · have htakes := lawful.streams.takes_of_decode (ofSnapshot_eq_ok.1 h)
    exact Fits.admitted (lawful.fits_of_takes htakes)
  · exact ofSnapshot_eq_ok.2 (lawful.back h.fits).decode

open Misused in
/-- The three deposits are there, and the ticket for their check is outstanding when the snapshot is
written. -/
theorem snapshot_admits_of_funding :
    (claimed.after funding).resumed.Admitted ∧
    ofSnapshot (claimed.after funding).resumed.toSnapshot = .ok (claimed.after funding).resumed := by
  have hconsistent : (claimed.after funding).Consistent :=
    (claimed_reachable.after funding_isMatched).consistent
  have hread : ofSnapshot (claimed.after funding).toSnapshot = .ok (claimed.after funding).resumed :=
    ofSnapshot_toSnapshot hconsistent funded_isWritable (by decide +kernel)
  obtain ⟨hin, hout⟩ := snapshot_admits (claimed.after funding).resumed
  have hadmitted := hin _ hread
  exact ⟨hadmitted, hout hadmitted⟩

/-- A Mixer's session in which the deposits are to be verified. It has no terms, no keys and no
deposits. -/
def emptied : Session where
  id := ⟨.replicate 16 7⟩
  status := .depositsObserved
  lastActivity := 10
  schedule := .empty
  constraints := .none
  fees := .standard
  escrow := some ⟨⟨"escrow"⟩, ⟨[]⟩⟩
  parties := { Registry.empty with role := some .mixer }
  record := .empty
  escrowFailure := none
  needsIntervention := false
  log := []
  epoch := 0
  pending := none

theorem emptied_admitted : emptied.Admitted where
  role _ := rfl
  escrow _ := rfl
  signedCount := by decide
  canonical := by decide +kernel
  writable := by decide +kernel
  peers role := by cases role <;> rfl
  epoch := rfl
  pending := rfl

/-- It is read from its bytes and can be reset at once, as if nothing had been placed into escrow. -/
theorem emptied_snapshot_admitted :
    ofSnapshot emptied.toSnapshot = .ok emptied ∧ emptied.status = .depositsObserved ∧
    (∀ role, emptied.record.deposit role = none) ∧ emptied.canReset = true ∧
    ¬emptied.Consistent := by
  have hread : ofSnapshot emptied.toSnapshot = .ok emptied :=
    ofSnapshot_eq_ok.2 (lawful.back emptied_admitted.fits).decode
  refine ⟨hread, rfl, fun role => Escrow.Record.empty_deposit role, rfl, fun h => ?_⟩
  exact absurd (h.record.allDeposits (by decide) .sender) (by decide)

end Session

end EscrowMix
