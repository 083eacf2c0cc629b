import EscrowMix.Role
import EscrowMix.Text.Blank

/-!
Payout addresses. To the protocol an address is a text that is not empty once the blanks at both
ends are gone; the wallet judges its form. The module also names what can be wrong with a payout
schedule, since an empty address is one of those faults.
-/

namespace EscrowMix

/-- A payout address. -/
structure Address where
  text : String
deriving DecidableEq

/-- What can be wrong with a schedule, its addresses or its amounts. -/
inductive Schedule.Error where
  /-- Nothing but blanks was given as an address. -/
  | emptyAddress
  /-- A payout that moves nothing. -/
  | zeroAmount (address : Address)
  /-- A session was begun without any payout. -/
  | emptySchedule
  /-- An amount that 64 bits do not hold. -/
  | amountOverflow
  /-- The distribution needs an address that is not known. -/
  | missingPayoutAddress (role : Role)
deriving DecidableEq

/-- The wording of a fault. -/
def Schedule.Error.message : Schedule.Error → String
  | emptyAddress => "Empty address"
  | zeroAmount address => "Payout to " ++ address.text ++ " has a zero amount"
  | emptySchedule => "The payout schedule is empty"
  | amountOverflow => "Amount overflow"
  | missingPayoutAddress role => "Missing payout address for " ++ role.name

namespace Address

/-- The address of a text, without the blanks at both ends. -/
def parse (text : String) : Except Schedule.Error Address :=
  let trimmed := Text.trim text
  if trimmed = "" then .error .emptyAddress else .ok ⟨trimmed⟩

/-- An address as `parse` gives it: trimmed and not empty. -/
def Canonical (a : Address) : Prop := Text.Trimmed a.text ∧ a.text ≠ ""

instance (a : Address) : Decidable a.Canonical :=
  inferInstanceAs (Decidable (Text.Trimmed a.text ∧ a.text ≠ ""))

instance : Codec Address where
  encode a := Codec.encode a.text
  size a := Codec.size a.text
  read := do
    let text : String ← Codec.read
    match parse text with
    | .ok a => return a
    | .error e => Codec.fail (.other e.message)

end Address

end EscrowMix
