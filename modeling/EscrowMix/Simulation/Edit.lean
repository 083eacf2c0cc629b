import EscrowMix.Bytes

/-!
Damage to stored bytes: single bytes are replaced, the end is cut off, other bytes are added.
-/

namespace EscrowMix.Simulation

/-- A change of a byte string. -/
structure Edit where
  /-- Bytes to put in place of others; places past the end are passed over. -/
  patch : List (Nat × UInt8)
  /-- The length to cut down to. -/
  truncate : Option Nat
  /-- The bytes to add at the end. -/
  append : Bytes
deriving DecidableEq

/-- Patches, cuts and then adds. -/
def Edit.apply (e : Edit) (bs : Bytes) : Bytes :=
  let patched := e.patch.foldl (fun bs (i, b) => bs.set i b) bs
  (match e.truncate with
    | some n => patched.take n
    | none => patched) ++ e.append

end EscrowMix.Simulation
