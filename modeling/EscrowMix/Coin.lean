import EscrowMix.Codec

/-!
What the chain knows: amounts, transaction identifiers, locking scripts, and the outputs of
transactions.
-/

namespace EscrowMix

/-- An amount in satoshis, the smallest unit of account. -/
structure Amount where
  sats : UInt64
deriving DecidableEq

namespace Amount

/-- Nothing. -/
def zero : Amount := ⟨0⟩

/-- The amount as a number. -/
def toNat (a : Amount) : Nat := a.sats.toNat

/-- The amount of a number, if 64 bits hold it. -/
def ofNat? (n : Nat) : Option Amount :=
  if n < UInt64.size then some ⟨UInt64.ofNat n⟩ else none

/-- The sum, if 64 bits hold it. -/
def add? (a b : Amount) : Option Amount := ofNat? (a.toNat + b.toNat)

/-- Satoshis in a whole coin. -/
def satsPerCoin : Nat := 100000000

/-- The amount in whole coins, always with eight decimals. -/
def text (a : Amount) : String :=
  let decimals := toString (a.toNat % satsPerCoin)
  toString (a.toNat / satsPerCoin) ++ "."
    ++ String.ofList (List.replicate (8 - decimals.length) '0') ++ decimals ++ " BTC"

theorem toNat_lt (a : Amount) : a.toNat < UInt64.size := a.sats.toNat_lt

theorem toNat_ofNat? {n : Nat} {a : Amount} (h : ofNat? n = some a) : a.toNat = n := by
  unfold ofNat? at h
  split at h
  · next hn =>
    cases h
    simp only [toNat, UInt64.toNat_ofNat']
    exact Nat.mod_eq_of_lt hn
  · cases h

theorem ofNat?_isSome {n : Nat} : (ofNat? n).isSome ↔ n < UInt64.size := by
  unfold ofNat?
  split <;> simp_all

theorem ext_toNat {a b : Amount} (h : a.toNat = b.toNat) : a = b := by
  obtain ⟨x⟩ := a
  obtain ⟨y⟩ := b
  have : x = y := UInt64.toNat_inj.mp h
  rw [this]

instance : Codec Amount where
  encode a := Codec.encode a.sats
  size a := Codec.size a.sats
  read := do return ⟨← Codec.read⟩

end Amount

/-- The identifier of a transaction: the 32 bytes of its hash. -/
structure Txid where
  hash : FixedBytes 32
deriving DecidableEq

namespace Txid

/-- Identifiers are shown as hexadecimal text of the bytes in reverse. -/
def text (t : Txid) : String := Hex.encode t.hash.bytes.reverse

/-- Reads an identifier as it is shown. -/
def parse? (s : String) : Option Txid := do
  let bs ← Hex.decode? s
  return ⟨← FixedBytes.ofBytes? bs.reverse⟩

instance : Codec Txid where
  encode t := Codec.encode t.hash
  size t := Codec.size t.hash
  read := do return ⟨← Codec.read⟩

end Txid

/-- A locking script. -/
structure Script where
  bytes : Bytes
deriving DecidableEq

instance : Codec Script where
  encode s := Codec.encode s.bytes
  size s := Codec.size s.bytes
  read := do return ⟨← Codec.read⟩

/-- One output of a transaction. -/
structure OutPoint where
  txid : Txid
  vout : UInt32
deriving DecidableEq

/-- The identifier of the transaction and the number of the output. -/
def OutPoint.text (o : OutPoint) : String := o.txid.text ++ ":" ++ toString o.vout.toNat

end EscrowMix
