/-!
Byte strings: lists of bytes, byte strings of a fixed length, their order and their hexadecimal
text. Hexadecimal text is written in lower case and read in either case, two digits to a byte.
-/

namespace EscrowMix

/-- A byte string. -/
abbrev Bytes := List UInt8

namespace Hex

/-- The lower case digit of a value below sixteen. -/
def digit (n : Nat) : Char :=
  if n < 10 then Char.ofNat (48 + n) else Char.ofNat (87 + n)

/-- The value of a hexadecimal digit, in either case. -/
def value? (c : Char) : Option Nat :=
  if '0' ≤ c ∧ c ≤ '9' then some (c.toNat - 48)
  else if 'a' ≤ c ∧ c ≤ 'f' then some (c.toNat - 87)
  else if 'A' ≤ c ∧ c ≤ 'F' then some (c.toNat - 55)
  else none

/-- Two digits to a byte, the high half first. -/
def encodeChars : Bytes → List Char
  | [] => []
  | b :: bs => digit (b.toNat / 16) :: digit (b.toNat % 16) :: encodeChars bs

/-- Reads pairs of digits; an odd digit or any other character is refused. -/
def decodeChars : List Char → Option Bytes
  | [] => some []
  | [_] => none
  | hi :: lo :: rest => do
    let h ← value? hi
    let l ← value? lo
    let bs ← decodeChars rest
    return UInt8.ofNat (16 * h + l) :: bs

/-- The hexadecimal text of a byte string. -/
def encode (bs : Bytes) : String := String.ofList (encodeChars bs)

/-- The byte string of a hexadecimal text. -/
def decode? (s : String) : Option Bytes := decodeChars s.toList

end Hex

/-- The lexicographic order of byte strings. -/
def Bytes.before : Bytes → Bytes → Bool
  | _, [] => false
  | [], _ :: _ => true
  | a :: as, b :: bs => a < b || (a == b && Bytes.before as bs)

/-- A byte string of exactly `n` bytes. -/
structure FixedBytes (n : Nat) where
  bytes : Bytes
  length_eq : bytes.length = n
deriving DecidableEq

namespace FixedBytes

/-- The byte string itself, if it has the length asked for. -/
def ofBytes? {n : Nat} (bs : Bytes) : Option (FixedBytes n) :=
  if h : bs.length = n then some ⟨bs, h⟩ else none

/-- The same byte in every place. -/
def replicate (n : Nat) (b : UInt8) : FixedBytes n := ⟨List.replicate n b, by simp⟩

theorem ext_bytes {n : Nat} {a b : FixedBytes n} (h : a.bytes = b.bytes) : a = b := by
  cases a; cases b; cases h; rfl

theorem ofBytes?_bytes {n : Nat} (b : FixedBytes n) : ofBytes? b.bytes = some b := by
  simp [ofBytes?, b.length_eq]

end FixedBytes

end EscrowMix
