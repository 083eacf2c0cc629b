import EscrowMix.Address
import EscrowMix.Coin
import EscrowMix.Keccak

/-!
The payouts of a session and its fees. With `T` the sum of the payouts, the Sender escrows `T`, the
fees of the Mixer and of the Guarantor, and a network fee; the two others escrow `T` and the network
fee. The distribution pays the scheduled destinations, `T` and its fee to the Mixer, and `T` and its
fee to the Guarantor, so three network fees are left over.
-/

namespace EscrowMix

/-- One output of the distribution. -/
structure Payout where
  address : Address
  amount : Amount
deriving DecidableEq

instance : Codec Payout where
  encode p := Codec.encode p.address ++ Codec.encode p.amount
  size p := Codec.size p.address + Codec.size p.amount
  read := do return ⟨← Codec.read, ← Codec.read⟩

/-- The payouts to the destinations, in order. -/
structure Schedule where
  payouts : List Payout
deriving DecidableEq

/-- The digest that identifies a schedule, alone or with its fees. -/
structure Fingerprint where
  digest : Bytes
deriving DecidableEq

/-- Fingerprints are shown in hexadecimal after `0x`. -/
def Fingerprint.text (f : Fingerprint) : String := "0x" ++ Hex.encode f.digest

/-- The fees of a session: a network fee that each escrow input adds, and the shares of the Mixer
and of the Guarantor in basis points of the sum of the payouts. -/
structure FeePolicy where
  feePerParty : Amount
  mixerBps : UInt16
  guarantorBps : UInt16
deriving DecidableEq

namespace FeePolicy

/-- Basis points in a whole. -/
def bpsDenominator : Nat := 10000

/-- The fees of a node without a configuration. -/
def standard : FeePolicy := ⟨⟨10000⟩, 50, 25⟩

instance : Codec FeePolicy where
  encode f := Codec.encode f.feePerParty ++ Codec.encode f.mixerBps ++ Codec.encode f.guarantorBps
  size f := Codec.size f.feePerParty + Codec.size f.mixerBps + Codec.size f.guarantorBps
  read := do return ⟨← Codec.read, ← Codec.read, ← Codec.read⟩

end FeePolicy

/-- The value, or an overflow. -/
def Amount.orOverflow : Option Amount → Except Schedule.Error Amount
  | some a => .ok a
  | none => .error .amountOverflow

namespace Schedule

/-- No payouts. -/
def empty : Schedule := ⟨[]⟩

/-- No payouts are scheduled. -/
def isEmpty (s : Schedule) : Bool := s.payouts.isEmpty

/-- The number of payouts. -/
def length (s : Schedule) : Nat := s.payouts.length

/-- Adds the amounts of payouts to a sum. -/
def addAmounts : Amount → List Payout → Option Amount
  | acc, [] => some acc
  | acc, p :: ps => do addAmounts (← acc.add? p.amount) ps

/-- The sum of the payouts. -/
def total (s : Schedule) : Except Error Amount := Amount.orOverflow (addAmounts .zero s.payouts)

/-- A schedule of payouts that each move something and whose sum 64 bits hold. The first payout of
nothing is reported before an overflow. -/
def ofPayouts (payouts : List Payout) : Except Error Schedule := do
  match payouts.find? (·.amount = .zero) with
  | some p => .error (.zeroAmount p.address)
  | none =>
    let s : Schedule := ⟨payouts⟩
    let _ ← s.total
    return s

/-- The same amount to every destination. -/
def uniform (destinations : List Address) (each : Amount) : Except Error Schedule :=
  ofPayouts (destinations.map (⟨·, each⟩))

/-- A schedule that `ofPayouts` accepts. -/
def Valid (s : Schedule) : Prop :=
  (∀ p ∈ s.payouts, p.amount ≠ .zero) ∧
    s.payouts.foldr (fun p n => p.amount.toNat + n) 0 < UInt64.size

instance (s : Schedule) : Decidable s.Valid :=
  inferInstanceAs (Decidable ((∀ p ∈ s.payouts, p.amount ≠ .zero) ∧ _))

instance : Codec Schedule where
  encode s := Codec.encode s.payouts
  size s := Codec.size s.payouts
  read := do
    let payouts : List Payout ← Codec.read
    match ofPayouts payouts with
    | .ok s => return s
    | .error e => Codec.fail (.other e.message)

/-- The bytes whose digest identifies a schedule. -/
def fingerprintInput (s : Schedule) : Bytes := Codec.encode s

/-- The bytes whose digest identifies a schedule together with its fees. -/
def termsInput (s : Schedule) (fees : FeePolicy) : Bytes := Codec.encode s ++ Codec.encode fees

/-- Identifies a schedule by its content. -/
def fingerprint (s : Schedule) : Fingerprint := ⟨Keccak.digest s.fingerprintInput⟩

/-- Identifies the terms that the three parties agree on. -/
def termsFingerprint (s : Schedule) (fees : FeePolicy) : Fingerprint :=
  ⟨Keccak.digest (s.termsInput fees)⟩

end Schedule

namespace FeePolicy

/-- A share of a sum, rounded down. -/
def share (total : Amount) (bps : UInt16) : Except Schedule.Error Amount :=
  Amount.orOverflow (Amount.ofNat? (total.toNat * bps.toNat / bpsDenominator))

/-- What the Sender owes the Mixer. -/
def mixerFee (f : FeePolicy) (s : Schedule) : Except Schedule.Error Amount := do
  share (← s.total) f.mixerBps

/-- What the Sender owes the Guarantor. -/
def guarantorFee (f : FeePolicy) (s : Schedule) : Except Schedule.Error Amount := do
  share (← s.total) f.guarantorBps

/-- The sum of two amounts, or an overflow. -/
def plus (a b : Amount) : Except Schedule.Error Amount := Amount.orOverflow (a.add? b)

/-- What a role has to place into escrow. -/
def requiredCoins (f : FeePolicy) (role : Role) (s : Schedule) : Except Schedule.Error Amount := do
  let total ← s.total
  match role with
  | .sender =>
    let mixerFee ← f.mixerFee s
    let guarantorFee ← f.guarantorFee s
    plus (← plus (← plus total mixerFee) guarantorFee) f.feePerParty
  | .mixer | .guarantor => plus total f.feePerParty

/-- The outputs of the distribution: the scheduled payouts, then the Mixer, then the Guarantor. -/
def distributionOutputs (f : FeePolicy) (s : Schedule) (mixer guarantor : Option Address) :
    Except Schedule.Error (List Payout) :=
  match mixer, guarantor with
  | none, _ => .error (.missingPayoutAddress .mixer)
  | some _, none => .error (.missingPayoutAddress .guarantor)
  | some mixer, some guarantor => do
    let total ← s.total
    let toMixer ← plus total (← f.mixerFee s)
    let toGuarantor ← plus total (← f.guarantorFee s)
    return s.payouts ++ [⟨mixer, toMixer⟩, ⟨guarantor, toGuarantor⟩]

end FeePolicy

end EscrowMix
