import EscrowMix.Session.Basic

/-!
The written form of a session, from which a node resumes after a restart, and the report on a
session that is shown to users. Connections, the epoch and an outstanding transition are not
written.
-/

namespace EscrowMix

namespace Session

/-- The bytes before every snapshot. -/
def magic : FixedBytes 4 := ⟨[0x41, 0x54, 0x58, 0x53], rfl⟩

/-- The version of the written form. -/
def snapshotVersion : UInt16 := 1

/-- Past the exchange of keys there must be an escrow. -/
def escrowMissing : Codec.Error := .malformed "escrow missing past key exchange"

/-- Past the beginning there must be a role. -/
def roleMissing : Codec.Error := .malformed "local role missing"

/-- The rules that a written session must keep. -/
def checkRead (s : Session) : Except Codec.Error Unit :=
  if Status.multisigAddr ≤ s.status ∧ s.escrow.isNone then .error escrowMissing
  else if Status.reserved ≤ s.status ∧ s.role.isNone then .error roleMissing
  else .ok ()

instance : Codec Session where
  encode s :=
    Codec.encode magic ++ Codec.encode snapshotVersion ++ Codec.encode s.id
      ++ Codec.encode s.status ++ Codec.encode s.lastActivity ++ Codec.encode s.schedule
      ++ Codec.encode s.constraints ++ Codec.encode s.fees ++ Codec.encode s.escrow
      ++ Codec.encode s.parties ++ Codec.encode s.record ++ Codec.encode s.escrowFailure
      ++ Codec.encode s.needsIntervention ++ Codec.encode s.log
  size s :=
    Codec.size magic + Codec.size snapshotVersion + Codec.size s.id
      + Codec.size s.status + Codec.size s.lastActivity + Codec.size s.schedule
      + Codec.size s.constraints + Codec.size s.fees + Codec.size s.escrow
      + Codec.size s.parties + Codec.size s.record + Codec.size s.escrowFailure
      + Codec.size s.needsIntervention + Codec.size s.log
  read := do
    let found : FixedBytes 4 ← Codec.read
    if found ≠ magic then Codec.fail .wrongMagic
    let version : UInt16 ← Codec.read
    if version ≠ snapshotVersion then Codec.fail (.unsupportedVersion version)
    let s : Session := {
      id := ← Codec.read
      status := ← Codec.read
      lastActivity := ← Codec.read
      schedule := ← Codec.read
      constraints := ← Codec.read
      fees := ← Codec.read
      escrow := ← Codec.read
      parties := ← Codec.read
      record := ← Codec.read
      escrowFailure := ← Codec.read
      needsIntervention := ← Codec.read
      log := ← Codec.read
      epoch := 0
      pending := none }
    match s.checkRead with
    | .ok () => return s
    | .error e => Codec.fail e

/-- The written form of a session. -/
def toSnapshot (s : Session) : Bytes := Codec.encode s

/-- The session of a written form. -/
def ofSnapshot (bs : Bytes) : Except Error Session :=
  (Codec.decode bs : Except Codec.Error Session).mapError .codec

/-- The session as it is after writing and reading. -/
def resumed (s : Session) : Session :=
  { s with parties := s.parties.disconnected, epoch := 0, pending := none }

/-- What users see of a session. -/
structure Report where
  id : SessionId
  status : Status
  role : Option Role
  terms : Fingerprint
  escrowAddress : Option Address
  signedCount : UInt8
  escrowFailure : Option EscrowFailure
  needsIntervention : Bool
  canReset : Bool
  log : List LogEntry
deriving DecidableEq

/-- The report on a session. -/
def report (s : Session) : Report where
  id := s.id
  status := s.status
  role := s.role
  terms := s.termsFingerprint
  escrowAddress := s.escrow.map (·.address)
  signedCount := s.record.signedCount
  escrowFailure := s.escrowFailure
  needsIntervention := s.needsIntervention
  canReset := s.canReset
  log := s.log

end Session

end EscrowMix
