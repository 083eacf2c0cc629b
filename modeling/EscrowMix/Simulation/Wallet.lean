import EscrowMix.Wallet

/-!
A wallet in memory. A distribution is one byte that counts the signatures, the inputs and outputs it
was built from, and the keys that signed it, so what a transaction does can be read off its bytes.
Every method can be made to fail.
-/

namespace EscrowMix.Simulation

namespace Wallet

/-- The methods of a wallet. -/
inductive Method where
  | build | verify | sign | broadcast | deriveMultisig
deriving DecidableEq

/-- The method of a name. -/
def Method.ofName? : String → Option Method
  | "build" => some build
  | "verify" => some verify
  | "sign" => some sign
  | "broadcast" => some broadcast
  | "derive" => some deriveMultisig
  | _ => none

/-- The method of a request. -/
def methodOf : Wallet.Request → Method
  | .build .. => .build
  | .verify .. => .verify
  | .sign .. => .sign
  | .broadcast _ => .broadcast
  | .deriveMultisig .. => .deriveMultisig

/-- The failure of a name, or of a name before a colon with a detail after it. -/
def failureOf (text : String) : Wallet.Error :=
  let cs := text.toList
  let name := String.ofList (cs.takeWhile (· ≠ ':'))
  let detail := String.ofList ((cs.dropWhile (· ≠ ':')).drop 1)
  if text = "locked" then .locked
  else if ':' ∉ cs then .other text
  else if name = "invalid" then .invalidTransaction detail
  else if name = "rejected" then .broadcastRejected detail
  else if name = "missing" then
    match PublicKey.parse? detail with
    | some key => .missingKey key
    | none => .other text
  else .other text

/-- How a wallet behaves. -/
structure Behaviour where
  /-- The methods that fail, and how. -/
  failures : List (Method × Wallet.Error)
  /-- Added to the number of signatures that signing reports. -/
  extra : UInt8
  /-- The answer to every check of a distribution, in place of the true one. -/
  verified : Option Bool

/-- Nothing fails and all answers are true. -/
def Behaviour.honest : Behaviour := ⟨[], 0, none⟩

end Wallet

/-- A wallet in memory. -/
structure Wallet where
  behaviour : Wallet.Behaviour
  /-- The transactions handed to the network, in order. -/
  broadcasts : List Bytes

namespace Wallet

/-- A wallet that has done nothing yet. -/
def new : Wallet := ⟨.honest, []⟩

/-- What a distribution spends and pays. -/
def flows (inputs : List Deposit) (outputs : List Payout) : Bytes :=
  Codec.encode inputs ++ Codec.encode outputs

/-- The distribution spends these inputs to these outputs. -/
def isMatch (candidate : Bytes) (inputs : List Deposit) (outputs : List Payout) : Bool :=
  match candidate with
  | [] => false
  | _ :: rest => (flows inputs outputs).isPrefixOf rest

/-- Adds a signature: one more is counted, and the key is added at the end. -/
def signed (extra : UInt8) (candidate : Bytes) (key : PublicKey) :
    Except Wallet.Error (Bytes × UInt8) :=
  match candidate with
  | [] => .error (.invalidTransaction "empty")
  | count :: rest => .ok ((count + 1) :: rest ++ key.bytes, count + 1 + extra)

/-- The escrow of three keys. -/
def multisig (keys : RoleMap PublicKey) (threshold : UInt8) : Multisig :=
  let script := (0x50 + threshold) :: keys.values.flatMap (·.bytes) ++ [0x53, 0xAE]
  ⟨⟨"2of3-" ++ Hex.encode ((script.drop 1).take 8)⟩, ⟨script⟩⟩

/-- Does what is asked, if the method works. -/
def answer (w : Wallet) : (q : EscrowMix.Wallet.Request) →
    Except EscrowMix.Wallet.Error q.Value × Wallet
  | .build inputs outputs constraints =>
    (failing .build (.ok (0 :: flows inputs outputs ++ Codec.encode constraints)), w)
  | .verify candidate inputs outputs =>
    (failing .verify (.ok (w.behaviour.verified.getD (isMatch candidate inputs outputs))), w)
  | .sign candidate key => (failing .sign (signed w.behaviour.extra candidate key), w)
  | .broadcast tx =>
    match w.behaviour.failures.lookup .broadcast with
    | some e => (.error e, w)
    | none => (.ok (), { w with broadcasts := w.broadcasts ++ [tx] })
  | .deriveMultisig keys threshold => (failing .deriveMultisig (.ok (multisig keys threshold)), w)
where
  failing {α : Type} (m : Method) (result : Except EscrowMix.Wallet.Error α) :
      Except EscrowMix.Wallet.Error α :=
    match w.behaviour.failures.lookup m with
    | some e => .error e
    | none => result

end Wallet

end EscrowMix.Simulation
