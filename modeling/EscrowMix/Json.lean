import EscrowMix.Bytes

/-!
JSON values, and the types with a JSON form. All numbers of the protocol are whole, so a number that
is written in another way is kept apart and fits no type. A member that an object lacks reads as null, and members
that a type does not know are passed over. Records and names are written in one way and read in two:
the fields of a record may also stand in an array, and a name may also be that of a null member.
-/

namespace EscrowMix

/-- A JSON value. -/
inductive Json where
  | null
  | bool (b : Bool)
  /-- A whole number, written as one. -/
  | number (n : Int)
  /-- A number written with a point or an exponent, or minus zero: a mantissa times a power of
  ten. -/
  | decimal (mantissa exponent : Int)
  | text (s : String)
  | array (items : List Json)
  | object (members : List (String × Json))
deriving Inhabited

/-- A type with a JSON form: how a value is written, and which value another one is, if any. -/
class JsonForm (α : Type) where
  write : α → Json
  read? : Json → Option α

namespace Json

/-- A whole number. -/
def ofInt (n : Int) : Json := .number n

/-- A natural number. -/
def ofNat (n : Nat) : Json := ofInt n

/-- The whole number that a value is. -/
def toInt? : Json → Option Int
  | number n => some n
  | _ => none

/-- The natural number of so many bits that a value is. -/
def toNat? (bits : Nat) (j : Json) : Option Nat := do
  let n ← j.toInt?
  if 0 ≤ n ∧ n.toNat < 1 <<< bits then some n.toNat else none

/-- A member of an object, null if it is not there. -/
def member? (j : Json) (name : String) : Option Json :=
  match j with
  | object members => some ((members.lookup name).getD null)
  | _ => none

/-- The items of an array. -/
def items? : Json → Option (List Json)
  | array items => some items
  | _ => none

/-- The fields of a record, by their names from an object, or in their order from an array, which
must then hold them all and nothing else. -/
def fields? (names : List String) : Json → Option (List Json)
  | object members => some (names.map fun name => (members.lookup name).getD null)
  | array items => if items.length = names.length then some items else none
  | _ => none

/-- The fields of a record that may all be left out: an object need not name them, and an array may
end before them. -/
def optionalFields? (names : List String) : Json → Option (List (Option Json))
  | object members => some (names.map fun name => members.lookup name)
  | array items =>
    if items.length ≤ names.length then
      some ((List.range names.length).map fun i => items[i]?)
    else none
  | _ => none

/-- The name that a value is, as text or as the one member of an object, which holds nothing. -/
def name? : Json → Option String
  | text s => some s
  | object [(s, null)] => some s
  | _ => none

/-- A value of one of several kinds: an object whose one member is named for the kind. -/
def tagged (kind : String) (content : Json) : Json := object [(kind, content)]

/-- The kind and the content of such a value. -/
def tagged? : Json → Option (String × Json)
  | object [m] => some m
  | _ => none

/-- Reads a member of an object. -/
def get? {α : Type} [JsonForm α] (j : Json) (name : String) : Option α := do
  JsonForm.read? (← j.member? name)

end Json

namespace JsonForm

instance : JsonForm Json := ⟨fun j => j, some⟩

instance : JsonForm UInt8 := ⟨fun n => .ofNat n.toNat, fun j => (j.toNat? 8).map UInt8.ofNat⟩
instance : JsonForm UInt16 := ⟨fun n => .ofNat n.toNat, fun j => (j.toNat? 16).map UInt16.ofNat⟩
instance : JsonForm UInt32 := ⟨fun n => .ofNat n.toNat, fun j => (j.toNat? 32).map UInt32.ofNat⟩
instance : JsonForm UInt64 := ⟨fun n => .ofNat n.toNat, fun j => (j.toNat? 64).map UInt64.ofNat⟩

/-- Natural numbers are read up to 64 bits. -/
instance : JsonForm Nat := ⟨.ofNat, Json.toNat? 64⟩

instance : JsonForm Int64 where
  write n := .ofInt n.toInt
  read? j := do
    let n ← j.toInt?
    if Int64.minValue.toInt ≤ n ∧ n ≤ Int64.maxValue.toInt then some (Int64.ofInt n) else none

instance : JsonForm Bool where
  write := .bool
  read?
    | .bool b => some b
    | _ => none

instance : JsonForm String where
  write := .text
  read?
    | .text s => some s
    | _ => none

/-- Null stands for nothing. -/
instance {α : Type} [JsonForm α] : JsonForm (Option α) where
  write
    | some a => write a
    | none => .null
  read?
    | .null => some none
    | j => (read? j).map some

instance {α : Type} [JsonForm α] : JsonForm (List α) where
  write as := .array (as.map write)
  read? j := do (← j.items?).mapM read?

/-- Two values are an array of two. -/
instance {α β : Type} [JsonForm α] [JsonForm β] : JsonForm (α × β) where
  write := fun (a, b) => .array [write a, write b]
  read?
    | .array [a, b] => do return (← read? a, ← read? b)
    | _ => none

/-- A byte string of a fixed length is an array of numbers. -/
instance {n : Nat} : JsonForm (FixedBytes n) where
  write b := write b.bytes
  read? j := do FixedBytes.ofBytes? (← (read? j : Option Bytes))

/-- Nothing to say. -/
instance : JsonForm Unit := ⟨fun _ => .null, fun _ => some ()⟩

end JsonForm

/-- Reads a field that may be left out for a standard value. -/
def Json.readD? {α : Type} [JsonForm α] (standard : α) : Option Json → Option α
  | some j => JsonForm.read? j
  | none => some standard

/-- Reads a member of an object that may be left out for a standard value. -/
def Json.getD? {α : Type} [JsonForm α] (j : Json) (name : String) (standard : α) : Option α := do
  let found : Option α ← j.get? name
  return found.getD standard

end EscrowMix
