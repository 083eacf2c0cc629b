import EscrowMix.Json.Session
import EscrowMix.Session.Signing
import EscrowMix.Session.View

/-!
How the state of a session and its parts is shown in JSON, for observers: with what can be worked
out from the state, and with byte strings as hexadecimal text. Views are only written.
-/

namespace EscrowMix

open JsonForm (write)

/-- Bytes are shown as hexadecimal text. -/
def Json.hex (bs : Bytes) : Json := .text (Hex.encode bs)

/-- What is known about a party. -/
def Party.toJson (p : Party) : Json :=
  .object [("address", write p.address), ("pubkey", write p.key), ("peer", write p.peer)]

/-- The parties of a session. -/
def Registry.toJson (g : Registry) : Json :=
  .object [("role", write g.role), ("parties", .array (g.parties.values.map Party.toJson)),
    ("all_keys", write g.hasAllKeys), ("keys", write g.keys),
    ("payout_addresses", write g.payoutAddresses)]

/-- The deposits and the distribution of a session. -/
def Escrow.Record.toJson (r : Escrow.Record) : Json :=
  .object [("candidate", write (r.candidate.map Hex.encode)), ("signed_count", write r.signedCount),
    ("deposits", write r.deposits), ("all_deposits", write r.allDeposits),
    ("reclaimable", write r.reclaimable), ("unreclaimed", write r.unreclaimed),
    ("all", write r.hasAllDeposits), ("any", write r.hasAnyDeposit),
    ("fully_signed", write r.isFullySigned)]

/-- What the wallet has to do for a distribution round. -/
def SigningPlan.toJson : SigningPlan → Json
  | build inputs outputs constraints =>
    .tagged "Build" (.object [("inputs", write inputs), ("outputs", write outputs),
      ("constraints", .hex constraints.bytes)])
  | sign candidate key inputs outputs =>
    .tagged "Sign" (.object [("candidate", .hex candidate), ("key", write key),
      ("inputs", write inputs), ("outputs", write outputs)])

namespace Session

/-- The whole state of a session. -/
def toJson (s : Session) : Json :=
  .object [("report", write s.report), ("last_activity", write s.lastActivity),
    ("schedule", write s.schedule), ("constraints", .hex s.constraints.bytes),
    ("fees", write s.fees), ("escrow", write s.escrow), ("parties", s.parties.toJson),
    ("record", s.record.toJson), ("in_progress", write s.isInProgress), ("busy", write s.isBusy),
    ("snapshot", .hex s.toSnapshot)]

/-- The state of a session in short. -/
def View.toJson (v : View) : Json :=
  .object [("id", write v.id), ("status", write v.status), ("role", write v.role),
    ("last_activity", write v.lastActivity), ("busy", write v.isBusy),
    ("expected_round", write v.expectedRound), ("signed_count", write v.signedCount),
    ("can_reset", write v.canReset), ("unreclaimed", write v.unreclaimed),
    ("escrow_address", write v.escrowAddress), ("failure", write (v.failure.map (·.message))),
    ("intervention", write v.needsIntervention), ("log_len", write v.logLength),
    ("log_new", write (v.logNew.map fun e => (e.time, e.event)))]

end Session

end EscrowMix
