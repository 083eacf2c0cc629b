import EscrowMix.Text.Utf8

/-!
The binary form of the protocol's data: little-endian numbers, one byte for a truth value or a
tag, and a length of four bytes before everything whose size is not fixed. Reading takes a value
from the front of a byte string and leaves the rest, so values are simply written one after the
other. Every party writes the same bytes for the same data, which is what makes fingerprints
comparable between parties.
-/

namespace EscrowMix

/-- Why bytes were refused. -/
inductive Codec.Error where
  /-- A tag or a truth value that means nothing. -/
  | unknownTag
  /-- A snapshot that does not begin with the magic bytes. -/
  | wrongMagic
  /-- A snapshot of a version that is not read. -/
  | unsupportedVersion (version : UInt16)
  /-- The source of the bytes failed. -/
  | input (text : String)
  /-- The bytes are readable but break a rule of their type. -/
  | malformed (reason : String)
  /-- A value inside is refused by its own type. -/
  | other (text : String)
deriving DecidableEq

namespace Codec

/-- The input ends too early. -/
def Error.endOfInput : Error := .input "failed to fill whole buffer"

/-- Bytes are left after the value. -/
def Error.trailingBytes : Error :=
  .malformed "data not consumed entirely when explicitly deserializing"

/-- The wording of a refusal. -/
def Error.message : Error → String
  | .unknownTag => "Unknown consensus type"
  | .wrongMagic => "Incorrect magic bytes"
  | .unsupportedVersion v => "Unsupported encoding version " ++ toString v.toNat
  | .input text => "IO error: " ++ text
  | .malformed reason => "Parsing error: " ++ reason
  | .other text => "Consensus error: " ++ text

/-- The text of a refusal that came from the type of a value inside. -/
def Error.inner? : Error → Option String
  | .other text => some text
  | _ => none

/-- Reading from the front of a byte string. -/
abbrev Reader (α : Type) := StateT Bytes (Except Error) α

end Codec

/-- A type with a binary form: how a value is written, how many bytes that takes, and how one is
read back. -/
class Codec (α : Type) where
  encode : α → Bytes
  size : α → Nat
  read : Codec.Reader α

namespace Codec

/-- Refuses the input. -/
def fail {α : Type} (e : Error) : Reader α := fun _ => .error e

/-- Reads a whole byte string: nothing may be left. -/
def decode {α : Type} [Codec α] (bs : Bytes) : Except Error α :=
  match (read : Reader α) bs with
  | .error e => .error e
  | .ok (a, []) => .ok a
  | .ok (_, _ :: _) => .error .trailingBytes

/-! ### Blocks of bytes and numbers -/

/-- Splits off the first `n` bytes, if there are as many. -/
def split? : Nat → Bytes → Option (Bytes × Bytes)
  | 0, bs => some ([], bs)
  | _ + 1, [] => none
  | n + 1, b :: bs => (split? n bs).map fun (front, rest) => (b :: front, rest)

/-- Reads a block of `n` bytes. -/
def readBlock (n : Nat) : Reader Bytes := fun bs =>
  match split? n bs with
  | some out => .ok out
  | none => .error .endOfInput

/-- The `w` lowest bytes of a number, the lowest first. -/
def littleEndian : Nat → Nat → Bytes
  | 0, _ => []
  | w + 1, n => UInt8.ofNat n :: littleEndian w (n / 256)

/-- The number that bytes make, the lowest first. -/
def ofLittleEndian : Bytes → Nat
  | [] => 0
  | b :: bs => b.toNat + 256 * ofLittleEndian bs

/-- Reads a number of `w` bytes. -/
def readNumber (w : Nat) : Reader Nat := do return ofLittleEndian (← readBlock w)

instance : Codec UInt8 where
  encode n := littleEndian 1 n.toNat
  size _ := 1
  read := do return UInt8.ofNat (← readNumber 1)

instance : Codec UInt16 where
  encode n := littleEndian 2 n.toNat
  size _ := 2
  read := do return UInt16.ofNat (← readNumber 2)

instance : Codec UInt32 where
  encode n := littleEndian 4 n.toNat
  size _ := 4
  read := do return UInt32.ofNat (← readNumber 4)

instance : Codec UInt64 where
  encode n := littleEndian 8 n.toNat
  size _ := 8
  read := do return UInt64.ofNat (← readNumber 8)

/-- Signed numbers are written in two's complement. -/
instance : Codec Int64 where
  encode n := littleEndian 8 n.toUInt64.toNat
  size _ := 8
  read := do return (UInt64.ofNat (← readNumber 8)).toInt64

instance : Codec Bool where
  encode b := encode (if b then 1 else 0 : UInt8)
  size b := size (if b then 1 else 0 : UInt8)
  read := do
    match (← read : UInt8) with
    | 0 => return false
    | 1 => return true
    | _ => fail .unknownTag

instance {n : Nat} : Codec (FixedBytes n) where
  encode b := b.bytes
  size _ := n
  read := do
    match FixedBytes.ofBytes? (← readBlock n) with
    | some b => return b
    | none => fail .endOfInput

/-! ### Sequences, options and text -/

/-- Reads `n` values one after the other. -/
def readMany {α : Type} [Codec α] : Nat → Reader (List α)
  | 0 => return []
  | n + 1 => do
    let a ← read
    let as ← readMany n
    return a :: as

/-- The sum of the sizes. -/
def sizes {α : Type} [Codec α] (as : List α) : Nat := as.foldr (fun a n => size a + n) 0

instance {α : Type} [Codec α] : Codec (List α) where
  encode as := encode (UInt32.ofNat as.length) ++ as.flatMap encode
  size as := size (UInt32.ofNat as.length) + sizes as
  read := do
    let n : UInt32 ← read
    readMany n.toNat

instance {α : Type} [Codec α] : Codec (Option α) where
  encode
    | some a => encode (1 : UInt8) ++ encode a
    | none => encode (0 : UInt8)
  size
    | some a => size (1 : UInt8) + size a
    | none => size (0 : UInt8)
  read := do
    match (← read : UInt8) with
    | 1 => return some (← read)
    | 0 => return none
    | _ => fail .unknownTag

/-- Text is written as the sequence of its UTF-8 bytes. -/
instance : Codec String where
  encode s := encode (Utf8.encode s.toList)
  size s := size (Utf8.encode s.toList)
  read := do
    let bs : Bytes ← read
    match Utf8.decode bs with
    | .ok cs => return String.ofList cs
    | .error fault => fail (.other fault.message)

end Codec

end EscrowMix
