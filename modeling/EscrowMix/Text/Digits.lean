/-!
Decimal digits, the highest first, as the number that they stand for.
-/

namespace EscrowMix.Text

/-- The number that decimal digits stand for; no digits stand for zero. -/
def ofDigits (cs : List Char) : Nat := cs.foldl (fun n c => 10 * n + (c.toNat - '0'.toNat)) 0

/-- The number that characters stand for, if they are decimal digits, at least one. -/
def ofDigits? (cs : List Char) : Option Nat :=
  if cs ≠ [] ∧ cs.all Char.isDigit then some (ofDigits cs) else none

end EscrowMix.Text
