import EscrowMix.Codec

/-!
The progress of a session, in the order of the protocol.
-/

namespace EscrowMix

/-- How far a session has come. -/
inductive Status where
  /-- Not begun. -/
  | notBegun
  /-- The role and the terms are known. -/
  | reserved
  /-- The own address and key are set. -/
  | initData
  /-- All three keys are known. -/
  | pubKey
  /-- The escrow address is derived. -/
  | multisigAddr
  /-- All three deposits are recorded. -/
  | depositsObserved
  /-- All three deposits are confirmed with the right amounts. -/
  | depositsVerified
  /-- The Sender built the distribution. -/
  | distTxRound0
  /-- The Mixer signed it. -/
  | distTxRound1
  /-- The Guarantor signed it. -/
  | distTxComplete
  /-- The distribution was broadcast. -/
  | complete
deriving DecidableEq, Repr

namespace Status

/-- All statuses, in the order of the protocol. -/
def all : List Status :=
  [notBegun, reserved, initData, pubKey, multisigAddr, depositsObserved, depositsVerified,
    distTxRound0, distTxRound1, distTxComplete, complete]

/-- The place in the order of the protocol. -/
def rank : Status → Nat
  | notBegun => 0
  | reserved => 1
  | initData => 2
  | pubKey => 3
  | multisigAddr => 4
  | depositsObserved => 5
  | depositsVerified => 6
  | distTxRound0 => 7
  | distTxRound1 => 8
  | distTxComplete => 9
  | complete => 10

instance : LE Status := ⟨fun a b => a.rank ≤ b.rank⟩
instance : LT Status := ⟨fun a b => a.rank < b.rank⟩
instance (a b : Status) : Decidable (a ≤ b) := inferInstanceAs (Decidable (a.rank ≤ b.rank))
instance (a b : Status) : Decidable (a < b) := inferInstanceAs (Decidable (a.rank < b.rank))

/-- The name shown to users. -/
def name : Status → String
  | notBegun => "None"
  | reserved => "Reserved"
  | initData => "InitData"
  | pubKey => "PubKey"
  | multisigAddr => "MultisigAddr"
  | depositsObserved => "DepositsObserved"
  | depositsVerified => "DepositsVerified"
  | distTxRound0 => "DistTxRound0"
  | distTxRound1 => "DistTxRound1"
  | distTxComplete => "DistTxComplete"
  | complete => "Complete"

/-- The status of a name. -/
def parse? (text : String) : Option Status := all.find? (·.name = text)

/-- Begun and not complete. -/
def isInProgress (s : Status) : Bool := s != notBegun && s != complete

/-- The status once a distribution round is recorded. -/
def afterRound (round : UInt8) : Status :=
  match round with
  | 0 => distTxRound0
  | 1 => distTxRound1
  | _ => distTxComplete

/-- The distribution round that comes next, while the session is signing. -/
def expectedRound? : Status → Option UInt8
  | depositsVerified => some 0
  | distTxRound0 => some 1
  | distTxRound1 => some 2
  | _ => none

theorem rank_inj {a b : Status} (h : a.rank = b.rank) : a = b := by
  cases a <;> cases b <;> first | rfl | (simp [rank] at h)

theorem all_rank (s : Status) : all[s.rank]? = some s := by
  cases s <;> rfl

/-- A status is written as its place in the order. -/
instance : Codec Status where
  encode s := Codec.encode (UInt8.ofNat s.rank)
  size s := Codec.size (UInt8.ofNat s.rank)
  read := do
    let tag : UInt8 ← Codec.read
    match all[tag.toNat]? with
    | some s => return s
    | none => Codec.fail .unknownTag

end Status

end EscrowMix
