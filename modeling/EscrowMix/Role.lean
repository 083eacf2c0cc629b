import EscrowMix.Codec

/-!
The three roles of a session and maps with one value for each role. Everywhere the roles are listed
in signing order: Sender, Mixer, Guarantor.
-/

namespace EscrowMix

/-- The part that a node plays in a session. -/
inductive Role where
  /-- Wants its coins to arrive without a link to where they came from. -/
  | sender
  /-- Pays the destinations and receives the Sender's coins. -/
  | mixer
  /-- Adds collateral and the second signature. -/
  | guarantor
deriving DecidableEq, Repr

namespace Role

/-- All roles, in signing order. -/
def all : List Role := [sender, mixer, guarantor]

/-- The place in signing order. -/
def index : Role → Nat
  | sender => 0
  | mixer => 1
  | guarantor => 2

/-- The distribution round that the role produces. -/
def signingRound (r : Role) : UInt8 := UInt8.ofNat r.index

/-- The role that produces a round. -/
def forRound? (round : UInt8) : Option Role := all[round.toNat]?

/-- The two other roles. -/
def others : Role → List Role
  | sender => [mixer, guarantor]
  | mixer => [sender, guarantor]
  | guarantor => [sender, mixer]

/-- The name shown to users. -/
def name : Role → String
  | sender => "Sender"
  | mixer => "Mixer"
  | guarantor => "Guarantor"

/-- The role of a name, with or without its capital. -/
def parse (text : String) : Except Codec.Error Role :=
  match text with
  | "Sender" | "sender" => .ok sender
  | "Mixer" | "mixer" => .ok mixer
  | "Guarantor" | "guarantor" => .ok guarantor
  | _ => .error .unknownTag

theorem forRound?_signingRound (r : Role) : forRound? r.signingRound = some r := by
  cases r <;> rfl

theorem mem_all (r : Role) : r ∈ all := by
  cases r <;> decide

/-- The tag of a role. -/
def tag : Role → UInt8
  | sender => 1
  | mixer => 2
  | guarantor => 3

instance : Codec Role where
  encode r := Codec.encode r.tag
  size r := Codec.size r.tag
  read := do
    match (← Codec.read : UInt8) with
    | 1 => return sender
    | 2 => return mixer
    | 3 => return guarantor
    | _ => Codec.fail .unknownTag

end Role

/-- One value for each role. -/
structure RoleMap (α : Type) where
  sender : α
  mixer : α
  guarantor : α
deriving DecidableEq

namespace RoleMap

variable {α β : Type}

/-- The value of a role. -/
def get (m : RoleMap α) : Role → α
  | .sender => m.sender
  | .mixer => m.mixer
  | .guarantor => m.guarantor

/-- Replaces the value of one role. -/
def set (m : RoleMap α) (r : Role) (a : α) : RoleMap α :=
  match r with
  | .sender => { m with sender := a }
  | .mixer => { m with mixer := a }
  | .guarantor => { m with guarantor := a }

/-- The map of a function. -/
def ofFn (f : Role → α) : RoleMap α := ⟨f .sender, f .mixer, f .guarantor⟩

/-- The same value for every role. -/
def replicate (a : α) : RoleMap α := ⟨a, a, a⟩

/-- The values in signing order. -/
def values (m : RoleMap α) : List α := [m.sender, m.mixer, m.guarantor]

/-- The roles with their values, in signing order. -/
def toList (m : RoleMap α) : List (Role × α) := Role.all.zip m.values

/-- Changes every value, knowing its role. -/
def map (f : Role → α → β) (m : RoleMap α) : RoleMap β := ofFn fun r => f r (m.get r)

/-- A test holds of every value. -/
def all (m : RoleMap α) (test : α → Bool) : Bool := m.values.all test

/-- A test holds of some value. -/
def any (m : RoleMap α) (test : α → Bool) : Bool := m.values.any test

/-- All three values, if each is there. -/
def sequence (m : RoleMap (Option α)) : Option (RoleMap α) := do
  return ⟨← m.sender, ← m.mixer, ← m.guarantor⟩

@[simp] theorem get_set_self (m : RoleMap α) (r : Role) (a : α) : (m.set r a).get r = a := by
  cases r <;> rfl

theorem get_set_of_ne (m : RoleMap α) {r q : Role} (a : α) (h : q ≠ r) :
    (m.set r a).get q = m.get q := by
  cases r <;> cases q <;> first | rfl | exact absurd rfl h

@[simp] theorem get_ofFn (f : Role → α) (r : Role) : (ofFn f).get r = f r := by
  cases r <;> rfl

@[simp] theorem get_replicate (a : α) (r : Role) : (replicate a).get r = a := by
  cases r <;> rfl

theorem ext_get {m n : RoleMap α} (h : ∀ r, m.get r = n.get r) : m = n := by
  obtain ⟨a, b, c⟩ := m
  obtain ⟨a', b', c'⟩ := n
  have hs : a = a' := h .sender
  have hm : b = b' := h .mixer
  have hg : c = c' := h .guarantor
  rw [hs, hm, hg]

/-- The values are written in signing order, with nothing between them. -/
instance [Codec α] : Codec (RoleMap α) where
  encode m := m.values.flatMap Codec.encode
  size m := Codec.sizes m.values
  read := do
    let sender ← Codec.read
    let mixer ← Codec.read
    let guarantor ← Codec.read
    return ⟨sender, mixer, guarantor⟩

end RoleMap

end EscrowMix
