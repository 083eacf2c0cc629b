import EscrowMix.Escrow
import EscrowMix.Program
import EscrowMix.PublicKey
import EscrowMix.Schedule

/-!
What a node may ask of its wallet, and the data that only the wallet understands.
-/

namespace EscrowMix

/-- Wishes about the coins to spend, which only the wallet understands. -/
structure CoinConstraints where
  bytes : Bytes
deriving DecidableEq

/-- No wishes. -/
def CoinConstraints.none : CoinConstraints := ⟨[]⟩

instance : Codec CoinConstraints where
  encode c := Codec.encode c.bytes
  size c := Codec.size c.bytes
  read := do return ⟨← Codec.read⟩

/-- The escrow: its address and the script behind it. -/
structure Multisig where
  address : Address
  script : Script
deriving DecidableEq

instance : Codec Multisig where
  encode m := Codec.encode m.address ++ Codec.encode m.script
  size m := Codec.size m.address + Codec.size m.script
  read := do return ⟨← Codec.read, ← Codec.read⟩

namespace Wallet

/-- How a wallet can fail. -/
inductive Error where
  /-- The wallet is locked. -/
  | locked
  /-- The private key is not in the wallet. -/
  | missingKey (key : PublicKey)
  /-- The transaction cannot be read or does not spend the escrow. -/
  | invalidTransaction (text : String)
  /-- The network refused the transaction. -/
  | broadcastRejected (text : String)
  /-- Anything else. -/
  | other (text : String)
deriving DecidableEq

/-- The wording of a failure. -/
def Error.message : Error → String
  | locked => "Wallet is locked"
  | missingKey key => "Missing private key for " ++ key.text
  | invalidTransaction text => "Invalid transaction: " ++ text
  | broadcastRejected text => "Broadcast rejected: " ++ text
  | other text => "Wallet error: " ++ text

/-- The text of a failure of another kind. -/
def Error.inner? : Error → Option String
  | other text => some text
  | _ => none

/-- What a wallet is asked to do. -/
inductive Request where
  /-- Build the distribution, without signatures. -/
  | build (inputs : List Deposit) (outputs : List Payout) (constraints : CoinConstraints)
  /-- Tell whether a distribution spends exactly these inputs to exactly these outputs, whatever
  signatures it carries. -/
  | verify (candidate : Bytes) (inputs : List Deposit) (outputs : List Payout)
  /-- Add the signature of a key; answered with the transaction and its number of signatures. -/
  | sign (candidate : Bytes) (key : PublicKey)
  /-- Hand a transaction to the network. -/
  | broadcast (tx : Bytes)
  /-- Derive the escrow that `threshold` of the keys can spend. -/
  | deriveMultisig (keys : RoleMap PublicKey) (threshold : UInt8)
deriving DecidableEq

/-- What a request that succeeds gives. -/
def Request.Value : Request → Type
  | build .. => Bytes
  | verify .. => Bool
  | sign .. => Bytes × UInt8
  | broadcast _ => Unit
  | deriveMultisig .. => Multisig

/-- Requests, each with an answer that may be a failure. -/
def interface : Interface := ⟨Request, fun q => Except Error q.Value⟩

end Wallet

end EscrowMix
