import EscrowMix.Address
import EscrowMix.PublicKey

/-!
The registry of a session's parties: the role that this node plays, and for each role the payout
address, the key in the escrow policy, and the connection that acts in it. Address and key of a role
are registered together and once; connections may change and are never written.
-/

namespace EscrowMix

/-- A connection to another node. -/
structure PeerId where
  number : UInt64
deriving DecidableEq

/-- How a connection is shown. -/
def PeerId.text (p : PeerId) : String := "peer#" ++ toString p.number.toNat

/-- How a registry can be misused. -/
inductive Registry.Error where
  /-- This node already plays another role. -/
  | roleAlreadySet (current requested : Role)
  /-- The role of this node is not known yet. -/
  | roleUnset
  /-- No key is registered for the role. -/
  | missingKey (role : Role)
  /-- Another address or key is registered for the role. -/
  | keyAlreadySet (role : Role)
deriving DecidableEq

/-- The wording of a misuse. -/
def Registry.Error.message : Registry.Error → String
  | roleAlreadySet current requested =>
    "Already playing " ++ current.name ++ ", cannot become " ++ requested.name
  | roleUnset => "The local role is not set"
  | missingKey role => "No key registered for " ++ role.name
  | keyAlreadySet role => "Address and key already registered for " ++ role.name

/-- What is known about one party. -/
structure Party where
  address : Option Address
  key : Option PublicKey
  peer : Option PeerId
deriving DecidableEq

/-- Nothing is known yet. -/
def Party.unknown : Party := ⟨none, none, none⟩

/-- The parties of a session. -/
structure Registry where
  role : Option Role
  parties : RoleMap Party
deriving DecidableEq

namespace Registry

/-- Neither a role nor a party is known. -/
def empty : Registry := ⟨none, .replicate .unknown⟩

/-- Takes up a role; the same role may be taken up again. -/
def setRole (g : Registry) (role : Role) : Except Error Registry :=
  match g.role with
  | some current =>
    if current = role then .ok g else .error (.roleAlreadySet current role)
  | none => .ok { g with role := some role }

/-- The role of this node, which has to be known. -/
def localRole (g : Registry) : Except Error Role :=
  match g.role with
  | some role => .ok role
  | none => .error .roleUnset

/-- The connection that acts in a role. -/
def peer (g : Registry) (role : Role) : Option PeerId := (g.parties.get role).peer

/-- The payout address of a role. -/
def address (g : Registry) (role : Role) : Option Address := (g.parties.get role).address

/-- The key of a role. -/
def key (g : Registry) (role : Role) : Option PublicKey := (g.parties.get role).key

/-- Lets a connection act in a role. -/
def setPeer (g : Registry) (role : Role) (peer : PeerId) : Registry :=
  { g with parties := g.parties.set role { g.parties.get role with peer := some peer } }

/-- Whether an address and a key are news for a role: not if the very same are registered. Any
other registration is in the way. -/
def isNews (g : Registry) (role : Role) (address : Address) (key : PublicKey) :
    Except Error Bool :=
  match g.address role, g.key role with
  | none, none => .ok true
  | some a, some k =>
    if a = address ∧ k = key then .ok false else .error (.keyAlreadySet role)
  | _, _ => .error (.keyAlreadySet role)

/-- Registers the address and the key of a role, and tells whether they were news. -/
def register (g : Registry) (role : Role) (address : Address) (key : PublicKey) :
    Except Error (Bool × Registry) := do
  if ← g.isNews role address key then
    let party := { g.parties.get role with address := some address, key := some key }
    return (true, { g with parties := g.parties.set role party })
  else
    return (false, g)

/-- All three keys are known. -/
def hasAllKeys (g : Registry) : Bool := g.parties.all (·.key.isSome)

/-- The three keys, once they are known. -/
def keys (g : Registry) : Option (RoleMap PublicKey) := (RoleMap.ofFn g.key).sequence

/-- The payout addresses that are known, in signing order. -/
def payoutAddresses (g : Registry) : List Address := g.parties.values.filterMap (·.address)

/-- The two other roles and their connections, once the own role is known. -/
def counterparts (g : Registry) : List (Role × Option PeerId) :=
  match g.role with
  | some role => role.others.map fun other => (other, g.peer other)
  | none => []

/-- The registry as it is after writing and reading: without connections. -/
def disconnected (g : Registry) : Registry :=
  { g with parties := g.parties.map fun _ party => { party with peer := none } }

end Registry

/-- A party is written without its connection. -/
instance : Codec Party where
  encode party := Codec.encode party.address ++ Codec.encode party.key
  size party := Codec.size party.address + Codec.size party.key
  read := do
    let address ← Codec.read
    let key ← Codec.read
    return ⟨address, key, none⟩

instance : Codec Registry where
  encode g := Codec.encode g.role ++ Codec.encode g.parties
  size g := Codec.size g.role + Codec.size g.parties
  read := do return ⟨← Codec.read, ← Codec.read⟩

end EscrowMix
