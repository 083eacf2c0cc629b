import EscrowMix.Proofs.Codec.Data
import EscrowMix.Proofs.Session.Progress
import EscrowMix.Proofs.Session.Snapshot

/-!
A session as bytes. A snapshot is a row of parts behind a mark and a version, so it is read back
because its parts are; the rules that reading checks hold of every session that calls lead to. What
comes back has no connections and nothing outstanding, and begins its first epoch.
-/

namespace EscrowMix

open Codec

theorem LogEntry.exact : Exact (read : Reader LogEntry) encode fun e => IsWritable e.event :=
  (exact_uint64.both exact_string).made (fun p => ⟨p.1, p.2⟩)
    (by simp only [both, bind_assoc, pure_bind]; rfl) (fun _ h => ⟨h.2, rfl⟩)
    fun e h => ⟨(e.time, e.event), ⟨trivial, h⟩, rfl⟩

namespace Session

/-- The session is read back: it keeps the rules that are checked, and holds nothing that is not
written. -/
structure Fits (s : Session) : Prop where
  schedule : s.schedule.Fits
  constraints : s.constraints.bytes.length < UInt32.size
  escrow : ∀ m ∈ s.escrow, m.Fits
  parties : s.parties.Fits
  record : s.record.Fits
  log : s.log.length < UInt32.size ∧ ∀ e ∈ s.log, Codec.IsWritable e.event
  checked : s.checkRead = .ok ()
  epoch : s.epoch = 0
  pending : s.pending = none

/-- What is written of a session after the version. -/
abbrev Parts : Type :=
  SessionId × Status × UInt64 × Schedule × CoinConstraints × FeePolicy × Option Multisig ×
    Registry × Escrow.Record × Option EscrowFailure × Bool × List LogEntry

/-- The written parts of a session. -/
def parts (s : Session) : Parts :=
  (s.id, s.status, s.lastActivity, s.schedule, s.constraints, s.fees, s.escrow, s.parties, s.record,
    s.escrowFailure, s.needsIntervention, s.log)

/-- The session of its written parts. -/
def ofParts : Parts → Session
  | (id, status, lastActivity, schedule, constraints, fees, escrow, parties, record, escrowFailure,
      needsIntervention, log) =>
    { id, status, lastActivity, schedule, constraints, fees, escrow, parties, record, escrowFailure,
      needsIntervention, log, epoch := 0, pending := none }

/-- Reads the parts one after the other. -/
def readParts : Reader Parts :=
  both read <| both read <| both read <| both read <| both read <| both read <| both read <|
    both read <| both read <| both read <| both read read

/-- The bytes of the parts. -/
def encodeParts (s : Session) : Bytes :=
  encode s.id ++ (encode s.status ++ (encode s.lastActivity ++ (encode s.schedule ++
    (encode s.constraints ++ (encode s.fees ++ (encode s.escrow ++ (encode s.parties ++
      (encode s.record ++ (encode s.escrowFailure ++ (encode s.needsIntervention ++
        encode s.log))))))))))

/-- The session of parts that keep the rules. -/
def checkParts (p : Parts) : Reader Session :=
  match (ofParts p).checkRead with
  | .ok () => return ofParts p
  | .error e => fail e

/-- The address texts in the parts. -/
def partsTexts : Reader (List String) :=
  together (skip (read : Reader SessionId)) <|
  together (skip (read : Reader Status)) <|
  together (skip (read : Reader UInt64)) <|
  together Schedule.texts <|
  together (skip (read : Reader CoinConstraints)) <|
  together (skip (read : Reader FeePolicy)) <|
  together (optionTexts Multisig.texts) <|
  together Registry.texts <|
  together (skip (read : Reader Escrow.Record)) <|
  together (skip (read : Reader (Option EscrowFailure))) <|
  together (skip (read : Reader Bool)) (skip (read : Reader (List LogEntry)))

/-- The address texts of a session. -/
def texts : Reader (List String) := do
  let _ : FixedBytes 4 ← read
  let _ : UInt16 ← read
  partsTexts

theorem lawful_parts : Matches (readParts >>= checkParts) encodeParts partsTexts Fits := by
  have hparts := Matches.both SessionId.exact <| Matches.both Status.exact <|
    Matches.both exact_uint64 <| Schedule.lawful.both <| Matches.both CoinConstraints.exact <|
    Matches.both FeePolicy.exact <| Multisig.lawful.option.both <| Registry.lawful.both <|
    Matches.both Escrow.Record.exact <| Matches.both EscrowFailure.exact.option <|
    Matches.both exact_bool LogEntry.exact.list
  refine hparts.refine rfl (fun {s} hs => ?_) fun p hp => ?_
  · have hmade : ofParts s.parts = s := by
      rw [ofParts, parts, ← hs.epoch, ← hs.pending]
    have hcheck : checkParts s.parts = pure s := by rw [checkParts, hmade, hs.checked]
    refine (hparts.back (a := s.parts) ?_).last (hcheck ▸ takes_pure s)
    exact ⟨trivial, trivial, trivial, hs.schedule, hs.constraints, trivial, hs.escrow, hs.parties,
      hs.record, fun _ _ => trivial, trivial, hs.log⟩
  · cases hc : (ofParts p).checkRead with
    | error e => exact .inr ⟨e, by rw [checkParts, hc]⟩
    | ok u =>
      obtain ⟨-, -, -, hschedule, hconstraints, -, hescrow, hparties, hrecord, -, -, hlog⟩ := hp
      exact .inl ⟨ofParts p, by rw [checkParts, hc],
        ⟨hschedule, hconstraints, hescrow, hparties, hrecord, hlog, hc, rfl, rfl⟩, rfl⟩

theorem lawful : Matches (read : Reader Session) encode texts Fits := by
  refine (Matches.after (v := fun s => encode snapshotVersion ++ encodeParts s) (fun _ => magic)
    (exact_fixedBytes 4) (fun found _ => ?_) fun _ _ => trivial).congr
    (fun s _ => s.toSnapshot_eq.symm) fun _ => Iff.rfl
  split
  · next hne => exact matches_fail _ _ _ fun s hs => hne hs.2.symm
  next hfound =>
  refine (Matches.after (v := encodeParts) (fun _ => snapshotVersion) exact_uint16
    (fun version _ => ?_) fun _ _ => trivial).congr (fun _ _ => rfl) fun _ => Iff.rfl
  split
  · next hne => exact matches_fail _ _ _ fun s hs => hne hs.2.symm
  next hversion =>
  have hfits : ∀ s : Session, s.Fits ↔ (s.Fits ∧ magic = found) ∧ snapshotVersion = version :=
    fun s => ⟨fun hs => ⟨⟨hs, (not_not.1 hfound).symm⟩, (not_not.1 hversion).symm⟩, fun hs => hs.1.1⟩
  refine Matches.congr ?_ (fun _ _ => rfl) hfits
  have h := lawful_parts
  simp only [readParts, both, bind_assoc, pure_bind] at h
  exact h

variable {s : Session}

/-- What comes back is read back again. -/
theorem Consistent.fits_resumed (h : s.Consistent) (hw : s.IsWritable) (hc : s.IsCanonical) :
    s.resumed.Fits where
  schedule := ⟨hw.schedule, hc.valid, hc.schedule⟩
  constraints := hw.constraints
  escrow m hm := ⟨⟨hc.escrow m hm, (hw.escrow m hm).1⟩, (hw.escrow m hm).2⟩
  parties role := by
    rw [resumed, Registry.disconnected, RoleMap.map, RoleMap.get_ofFn]
    exact ⟨fun a ha => ⟨hc.parties role a ha, hw.parties role a ha⟩, rfl⟩
  record := ⟨h.signedCount_le, hw.candidate, hw.deposits⟩
  log := ⟨hw.log, hw.events⟩
  checked := h.checkRead
  epoch := rfl
  pending := rfl

/-- A session that calls can lead to comes back from its snapshot as it was, but for its
connections, its epoch and an outstanding transition, and with the same report. A snapshot is
neither cut short nor continued: a part of it ends too early, and bytes behind it are left over. -/
theorem Reachable.snapshot_round_trip (h : Reachable s) (hw : s.IsWritable) (hc : s.IsCanonical) :
    ofSnapshot s.toSnapshot = .ok s.resumed ∧ s.resumed.report = s.report ∧
    (∀ front, front <+: s.toSnapshot → front ≠ s.toSnapshot →
      ofSnapshot front = .error (.codec .endOfInput)) ∧
    ∀ rest, rest ≠ [] → ofSnapshot (s.toSnapshot ++ rest) = .error (.codec .trailingBytes) := by
  have hback : Takes read s.toSnapshot s.resumed :=
    toSnapshot_resumed s ▸ lawful.back (h.consistent.fits_resumed hw hc)
  refine ⟨ofSnapshot_toSnapshot h.consistent hw hc, rfl, fun front hp hne => ?_, fun rest hne => ?_⟩
  · rw [ofSnapshot, lawful.streams.decode_endOfInput hback hp hne]
    rfl
  · rw [ofSnapshot, hback.trailingBytes hne]
    rfl

open Misused in
theorem funded_isWritable : (claimed.after funding).IsWritable := by
  have hevents : ∀ e ∈ (claimed.after funding).log, e.event.utf8ByteSize < UInt32.size := by
    decide +kernel
  refine (isWritable_iff _).2 ⟨?_, ?_, ?_, ?_, ?_, ?_, ?_, fun e he =>
    (Codec.isWritable_iff e.event).2 (hevents e he)⟩
  all_goals decide +kernel

open Misused in
/-- The check of the deposits is outstanding, and the connection of the Sender is known. -/
theorem snapshot_round_trip_of_funding :
    (claimed.after funding).pending = some .verifyDeposits ∧
    (claimed.after funding).parties.peer .sender ≠ none ∧
    (claimed.after funding).resumed.parties.peer .sender = none ∧
    ofSnapshot (claimed.after funding).toSnapshot = .ok (claimed.after funding).resumed :=
  ⟨by decide +kernel, by decide +kernel, by decide +kernel,
    (Reachable.snapshot_round_trip (claimed_reachable.after funding_isMatched) funded_isWritable
      (by decide +kernel)).1⟩

end Session

end EscrowMix
