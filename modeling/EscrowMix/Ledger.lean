import EscrowMix.Address
import EscrowMix.Coin
import EscrowMix.Program

/-!
What a node may ask about the chain. Each question is answered or fails; a failure says nothing
about the chain.
-/

namespace EscrowMix.Ledger

/-- How a question can fail. -/
inductive Error where
  /-- The chain's state is not at hand. -/
  | unavailable
  /-- Anything else. -/
  | other (text : String)
deriving DecidableEq

/-- The wording of a failure. -/
def Error.message : Error → String
  | unavailable => "Chain state unavailable"
  | other text => "Ledger error: " ++ text

/-- The text of a failure of another kind. -/
def Error.inner? : Error → Option String
  | other text => some text
  | _ => none

/-- An output that is not spent. -/
structure TxOutput where
  amount : Amount
  script : Script
deriving DecidableEq

/-- A question about the chain. -/
inductive Query where
  /-- The confirmations of a transaction, none for an unknown one. -/
  | confirmations (txid : Txid)
  /-- The output, if it exists and is not spent. -/
  | output (o : OutPoint)
  /-- Whether the output is confirmed and pays at least `least` to the address. -/
  | isConfirmedPaying (o : OutPoint) (address : Address) (least : Amount)
deriving DecidableEq

/-- What an answered question gives. -/
def Query.Value : Query → Type
  | confirmations _ => UInt32
  | output _ => Option TxOutput
  | isConfirmedPaying .. => Bool

/-- Questions, each with an answer that may be a failure. -/
def interface : Interface := ⟨Query, fun q => Except Error q.Value⟩

/-- A run of questions that ends at the first failure. -/
abbrev Asking (α : Type) := ExceptT Error (Program interface) α

/-- Asks for the confirmations of a transaction. -/
def confirmations (txid : Txid) : Asking UInt32 :=
  ExceptT.mk (Program.request (I := interface) (.confirmations txid))

/-- Asks for an output. -/
def output (o : OutPoint) : Asking (Option TxOutput) :=
  ExceptT.mk (Program.request (I := interface) (.output o))

/-- Asks whether an output pays an address. -/
def isConfirmedPaying (o : OutPoint) (address : Address) (least : Amount) : Asking Bool :=
  ExceptT.mk (Program.request (I := interface) (.isConfirmedPaying o address least))

end EscrowMix.Ledger
