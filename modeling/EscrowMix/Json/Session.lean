import EscrowMix.Json.Error
import EscrowMix.Json.Terms
import EscrowMix.Session.Snapshot

/-!
The JSON forms of a session's data, of its plans, and of the report on it.
-/

namespace EscrowMix.JsonForm

instance : JsonForm SessionId := ⟨fun i => .text i.text, fun j => do SessionId.parse? (← read? j)⟩

instance : JsonForm Status := ⟨fun s => .text s.name, fun j => do Status.parse? (← j.name?)⟩

instance : JsonForm PeerId := ⟨fun p => write p.number, fun j => (read? j).map PeerId.mk⟩

instance : JsonForm Deposit where
  write d :=
    .object [("txid", write d.txid), ("vout", write d.vout), ("script", write d.script)]
  read? j := do
    let [txid, vout, script] ← j.fields? ["txid", "vout", "script"] | none
    return ⟨← read? txid, ← read? vout, ← read? script⟩

/-- A failure is an object named for its kind; one that only concerns a role holds the role. -/
instance : JsonForm EscrowFailure where
  write f :=
    .tagged f.name (match f with
      | .insufficientConfirmations role confirmations required =>
        .object [("role", write role), ("confirmations", write confirmations),
          ("required", write required)]
      | .underpaid role required actual =>
        .object [("role", write role), ("required", write required), ("actual", write actual)]
      | .sharedOutput role holder => .object [("role", write role), ("holder", write holder)]
      | .missingOutput role | .scriptMismatch role | .wrongAddress role => write role)
  read? j := do
    match ← j.tagged? with
    | ("InsufficientConfirmations", j) =>
      return .insufficientConfirmations (← j.get? "role") (← j.get? "confirmations")
        (← j.get? "required")
    | ("MissingOutput", j) => return .missingOutput (← read? j)
    | ("ScriptMismatch", j) => return .scriptMismatch (← read? j)
    | ("Underpaid", j) =>
      return .underpaid (← j.get? "role") (← j.get? "required") (← j.get? "actual")
    | ("WrongAddress", j) => return .wrongAddress (← read? j)
    | ("SharedOutput", j) => return .sharedOutput (← j.get? "role") (← j.get? "holder")
    | _ => none

/-- Wishes about coins are an array of numbers. -/
instance : JsonForm CoinConstraints where
  write c := write c.bytes
  read? j := (read? j).map CoinConstraints.mk

instance : JsonForm Multisig where
  write m := .object [("address", write m.address), ("script", write m.script)]
  read? j := do
    let [address, script] ← j.fields? ["address", "script"] | none
    return ⟨← read? address, ← read? script⟩

instance : JsonForm LogEntry where
  write e := .object [("time", write e.time), ("event", write e.event)]
  read? j := do
    let [time, event] ← j.fields? ["time", "event"] | none
    return ⟨← read? time, ← read? event⟩

instance : JsonForm DepositCheck where
  write c :=
    .object [("role", write c.role), ("deposit", write c.deposit), ("required", write c.required)]
  read? j := do return ⟨← j.get? "role", ← j.get? "deposit", ← j.get? "required"⟩

instance : JsonForm VerificationPlan where
  write p :=
    .object [("escrow_address", write p.escrowAddress),
      ("min_confirmations", write p.minConfirmations), ("checks", write p.checks)]
  read? j := do
    return ⟨← j.get? "escrow_address", ← j.get? "min_confirmations", ← j.get? "checks"⟩

instance : JsonForm Fingerprint where
  write f := .text f.text
  read? j := do
    let text : String ← read? j
    if text.toList.take 2 = ['0', 'x'] then
      let digest : FixedBytes 32 ← FixedBytes.ofBytes? (← Hex.decodeChars (text.toList.drop 2))
      return ⟨digest.bytes⟩
    else none

/-- The report on a session. -/
instance : JsonForm Session.Report where
  write r :=
    .object [("session_id", write r.id), ("status", write r.status), ("role", write r.role),
      ("terms", write r.terms), ("escrow_address", write r.escrowAddress),
      ("signed_count", write r.signedCount), ("escrow_failure", write r.escrowFailure),
      ("needs_intervention", write r.needsIntervention), ("can_reset", write r.canReset),
      ("log", write r.log)]
  read? j := do
    return {
      id := ← j.get? "session_id"
      status := ← j.get? "status"
      role := ← j.get? "role"
      terms := ← j.get? "terms"
      escrowAddress := ← j.get? "escrow_address"
      signedCount := ← j.get? "signed_count"
      escrowFailure := ← j.get? "escrow_failure"
      needsIntervention := ← j.get? "needs_intervention"
      canReset := ← j.get? "can_reset"
      log := ← j.get? "log" }

end EscrowMix.JsonForm
