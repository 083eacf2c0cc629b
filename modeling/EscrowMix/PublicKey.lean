import EscrowMix.Codec

/-!
Public keys on the curve `y² = x³ + 7` over the field of `p = 2²⁵⁶ - 2³² - 977` elements. A key is
written as one byte `02` or `03` (the parity of `y`) and `x`, or as `04`, `x` and `y`. The two forms
of one point are different keys.

The program takes its keys from the package `bitcoin`, which is not part of it. Here they are
defined so that commands with keys can be run. What is proved of all keys uses only that reading
bytes and writing them are inverse to each other (`ofBytes_bytes`, `bytes_of_ofBytes`), and that a
key has 33 or 65 bytes.
-/

namespace EscrowMix

namespace Curve

/-- The number of elements of the field. -/
def p : Nat := 1 <<< 256 - 1 <<< 32 - 977

/-- A power in the field, by squaring; `bits` bounds the length of the exponent. -/
def power (bits base exponent : Nat) : Nat :=
  match bits with
  | 0 => 1
  | bits + 1 =>
    let rest := power bits (base * base % p) (exponent / 2)
    if exponent % 2 = 1 then base * rest % p else rest

/-- The right side of the curve's equation. -/
def rightSide (x : Nat) : Nat := (x * x * x + 7) % p

/-- A value is a square of the field iff its power to `(p - 1) / 2` is not `-1`. -/
def isSquare (a : Nat) : Bool := power 256 a ((p - 1) / 2) != p - 1

/-- Some point of the curve has this `x`. -/
def hasPointAt (x : Nat) : Bool := x < p && isSquare (rightSide x)

/-- The point `(x, y)` is on the curve. -/
def contains (x y : Nat) : Bool := x < p && y < p && y * y % p == rightSide x

/-- The number that bytes make, the highest first. -/
def ofBigEndian (bs : Bytes) : Nat := bs.foldl (fun n b => 256 * n + b.toNat) 0

end Curve

/-- Why bytes are not a public key. -/
inductive PublicKey.Fault where
  /-- Neither 33 nor 65 bytes. -/
  | length (n : Nat)
  /-- The first of 65 bytes is not `04`. -/
  | lead (b : UInt8)
  /-- Not a point of the curve. -/
  | notOnCurve
deriving DecidableEq

namespace PublicKey

/-- The wording of a fault. -/
def Fault.message : Fault → String
  | .length n => "Key base58 error: length " ++ toString n ++ " invalid for this base58 type"
  | .lead b => "Key prefix invalid: " ++ toString b.toNat
  | .notOnCurve => "Key secp256k1 error: secp: malformed public key"

/-- The first fault of bytes given as a key: the length is checked first, then the first byte of
the long form, then the point. -/
def fault? (bs : Bytes) : Option Fault :=
  if bs.length ≠ 33 ∧ bs.length ≠ 65 then some (.length bs.length)
  else
    match bs with
    | [] => some (.length 0)
    | b :: rest =>
      if rest.length = 32 then
        if (b = 2 ∨ b = 3) ∧ Curve.hasPointAt (Curve.ofBigEndian rest) then none
        else some .notOnCurve
      else if b ≠ 4 then some (.lead b)
      else if Curve.contains (Curve.ofBigEndian (rest.take 32)) (Curve.ofBigEndian (rest.drop 32))
      then none
      else some .notOnCurve

end PublicKey

/-- A public key: bytes without a fault. -/
structure PublicKey where
  bytes : Bytes
  faultless : PublicKey.fault? bytes = none
deriving DecidableEq

namespace PublicKey

/-- The key that bytes make, or their first fault. -/
def ofBytes (bs : Bytes) : Except Fault PublicKey :=
  match h : fault? bs with
  | none => .ok ⟨bs, h⟩
  | some f => .error f

/-- The hexadecimal text of a key. -/
def text (k : PublicKey) : String := Hex.encode k.bytes

/-- The key of a hexadecimal text. -/
def parse? (s : String) : Option PublicKey := do
  match ofBytes (← Hex.decode? s) with
  | .ok k => some k
  | .error _ => none

theorem ofBytes_bytes (k : PublicKey) : ofBytes k.bytes = .ok k := by
  unfold ofBytes
  split
  · rfl
  · next f h => simp [k.faultless] at h

theorem bytes_of_ofBytes {bs : Bytes} {k : PublicKey} (h : ofBytes bs = .ok k) : k.bytes = bs := by
  unfold ofBytes at h
  split at h
  · cases h; rfl
  · cases h

/-- A key is written as the sequence of its bytes. -/
instance : Codec PublicKey where
  encode k := Codec.encode k.bytes
  size k := Codec.size k.bytes
  read := do
    let bs : Bytes ← Codec.read
    match ofBytes bs with
    | .ok k => return k
    | .error f => Codec.fail (.other f.message)

end PublicKey

end EscrowMix
