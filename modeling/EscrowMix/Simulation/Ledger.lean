import EscrowMix.Verification

/-!
A ledger in memory, whose questions can be made to fail after a number of answers, and which keeps
the questions it was asked.
-/

namespace EscrowMix.Simulation

/-- An output on the ledger. -/
structure Paid where
  amount : Amount
  script : Script
  address : Address
deriving DecidableEq

/-- A ledger in memory. -/
structure Ledger where
  outputs : List (OutPoint × Paid)
  confirmations : List (Txid × UInt32)
  /-- How questions fail, if they do. -/
  failure : Option Ledger.Error
  /-- Questions that are still answered before they fail. -/
  after : Nat
  /-- The questions asked, in order. -/
  asked : List Ledger.Query

namespace Ledger

/-- Nothing was paid. -/
def empty : Ledger := ⟨[], [], none, 0, []⟩

/-- A change of the ledger: an output of a transaction, if one is given with its position, and the
confirmations of the transaction, if they are given. -/
structure Payment where
  txid : Txid
  output : Option (UInt32 × Paid)
  confirmations : Option UInt32
deriving DecidableEq

/-- Applies a payment; later entries count before earlier ones. -/
def pay (l : Ledger) (p : Payment) : Ledger :=
  { l with
    outputs := (p.output.map fun (vout, paid) => (⟨p.txid, vout⟩, paid)).toList ++ l.outputs
    confirmations := (p.confirmations.map (p.txid, ·)).toList ++ l.confirmations }

/-- Spends an output. -/
def spend (l : Ledger) (o : OutPoint) : Ledger :=
  { l with outputs := l.outputs.filter (·.1 ≠ o) }

/-- An output that is not spent. -/
def find (l : Ledger) (o : OutPoint) : Option Paid := l.outputs.lookup o

/-- The confirmations of a transaction. -/
def confirmationsOf (l : Ledger) (txid : Txid) : UInt32 := (l.confirmations.lookup txid).getD 0

/-- The true answer to a question. -/
def truth (l : Ledger) : (q : EscrowMix.Ledger.Query) → q.Value
  | .confirmations txid => l.confirmationsOf txid
  | .output o => (l.find o).map fun paid => ⟨paid.amount, paid.script⟩
  | .isConfirmedPaying o address least =>
    match l.find o with
    | none => false
    | some paid =>
      l.confirmationsOf o.txid > 0 && paid.address = address
        && least.toNat ≤ paid.amount.toNat

/-- Answers a question, or fails. -/
def answer (q : EscrowMix.Ledger.Query) (l : Ledger) :
    Except EscrowMix.Ledger.Error q.Value × Ledger :=
  let l := { l with asked := l.asked ++ [q] }
  match l.failure with
  | none => (.ok (l.truth q), l)
  | some e =>
    if l.after = 0 then (.error e, l) else (.ok (l.truth q), { l with after := l.after - 1 })

/-- The failure of a name. -/
def failureOf (text : String) : EscrowMix.Ledger.Error :=
  if text = "unavailable" then .unavailable else .other text

/-- A question as it is listed: its kind and the first four digits of the transaction. -/
def queryText : EscrowMix.Ledger.Query → String
  | .confirmations txid => "confirmations " ++ digits txid
  | .output o => "get_output " ++ digits o.txid
  | .isConfirmedPaying o _ _ => "is_confirmed_paying " ++ digits o.txid
where
  digits (txid : Txid) : String := String.ofList (txid.text.toList.take 4)

end Ledger

end EscrowMix.Simulation
