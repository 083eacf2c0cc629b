import EscrowMix.Proofs.Codec
import EscrowMix.Session.Snapshot

/-!
The size that is told for a value is the number of bytes that are written for it. Whoever writes a
value adds up the sizes of its parts in the order in which they are written.
-/

namespace EscrowMix

namespace Codec

variable {α : Type} [Codec α]

theorem size_append {m n : Nat} {bs bs' : Bytes} (h : m = bs.length) (h' : n = bs'.length) :
    m + n = (bs ++ bs').length := by
  rw [h, h', List.length_append]

theorem size_uint8 (n : UInt8) : size n = (encode n).length := (length_littleEndian 1 _).symm

theorem size_uint16 (n : UInt16) : size n = (encode n).length := (length_littleEndian 2 _).symm

theorem size_uint32 (n : UInt32) : size n = (encode n).length := (length_littleEndian 4 _).symm

theorem size_uint64 (n : UInt64) : size n = (encode n).length := (length_littleEndian 8 _).symm

theorem size_int64 (n : Int64) : size n = (encode n).length := (length_littleEndian 8 _).symm

theorem size_bool (b : Bool) : size b = (encode b).length := size_uint8 _

theorem size_fixedBytes {n : Nat} (b : FixedBytes n) : size b = (encode b).length :=
  b.length_eq.symm

theorem sizes_eq (h : ∀ a : α, size a = (encode a).length) (as : List α) :
    sizes as = (as.flatMap encode).length := by
  induction as with
  | nil => rfl
  | cons a as ih =>
    rw [List.flatMap_cons]
    exact size_append (h a) ih

theorem size_list (h : ∀ a : α, size a = (encode a).length) (as : List α) :
    size as = (encode as).length :=
  size_append (size_uint32 _) (sizes_eq h as)

theorem size_option (h : ∀ a : α, size a = (encode a).length) (o : Option α) :
    size o = (encode o).length := by
  cases o with
  | none => exact size_uint8 0
  | some a => exact size_append (size_uint8 1) (h a)

theorem size_roleMap (h : ∀ a : α, size a = (encode a).length) (m : RoleMap α) :
    size m = (encode m).length :=
  sizes_eq h m.values

theorem size_bytes (bs : Bytes) : size bs = (encode bs).length := size_list size_uint8 bs

theorem size_string (s : String) : size s = (encode s).length := size_bytes _

end Codec

open Codec

theorem Amount.size_eq (a : Amount) : size a = (encode a).length := size_uint64 _

theorem Txid.size_eq (t : Txid) : size t = (encode t).length := size_fixedBytes _

theorem SessionId.size_eq (i : SessionId) : size i = (encode i).length := size_fixedBytes _

theorem Script.size_eq (s : Script) : size s = (encode s).length := size_bytes _

theorem CoinConstraints.size_eq (c : CoinConstraints) : size c = (encode c).length := size_bytes _

theorem PublicKey.size_eq (k : PublicKey) : size k = (encode k).length := size_bytes _

theorem Role.size_eq (r : Role) : size r = (encode r).length := size_uint8 _

theorem Status.size_eq (s : Status) : size s = (encode s).length := size_uint8 _

theorem FeePolicy.size_eq (f : FeePolicy) : size f = (encode f).length :=
  size_append (size_append (Amount.size_eq _) (size_uint16 _)) (size_uint16 _)

theorem Deposit.size_eq (d : Deposit) : size d = (encode d).length :=
  size_append (size_append (Txid.size_eq _) (size_uint32 _)) (Script.size_eq _)

theorem Escrow.Record.size_eq (r : Escrow.Record) : size r = (encode r).length :=
  size_append (size_append (size_append (size_option size_bytes _) (size_uint8 _))
    (size_roleMap (size_option Deposit.size_eq) _)) (size_roleMap size_bool _)

theorem EscrowFailure.size_eq (f : EscrowFailure) : size f = (encode f).length := by
  cases f with
  | insufficientConfirmations =>
    exact size_append (size_append (size_append (size_uint8 1) (Role.size_eq _)) (size_uint32 _))
      (size_uint32 _)
  | missingOutput => exact size_append (size_uint8 2) (Role.size_eq _)
  | scriptMismatch => exact size_append (size_uint8 3) (Role.size_eq _)
  | underpaid =>
    exact size_append (size_append (size_append (size_uint8 4) (Role.size_eq _)) (Amount.size_eq _))
      (Amount.size_eq _)
  | wrongAddress => exact size_append (size_uint8 5) (Role.size_eq _)
  | sharedOutput =>
    exact size_append (size_append (size_uint8 6) (Role.size_eq _)) (Role.size_eq _)

theorem Address.size_eq (a : Address) : size a = (encode a).length := size_string _

theorem Payout.size_eq (p : Payout) : size p = (encode p).length :=
  size_append (Address.size_eq _) (Amount.size_eq _)

theorem Schedule.size_eq (s : Schedule) : size s = (encode s).length := size_list Payout.size_eq _

theorem Multisig.size_eq (m : Multisig) : size m = (encode m).length :=
  size_append (Address.size_eq _) (Script.size_eq _)

theorem Party.size_eq (party : Party) : size party = (encode party).length :=
  size_append (size_option Address.size_eq _) (size_option PublicKey.size_eq _)

theorem Registry.size_eq (g : Registry) : size g = (encode g).length :=
  size_append (size_option Role.size_eq _) (size_roleMap Party.size_eq _)

theorem LogEntry.size_eq (e : LogEntry) : size e = (encode e).length :=
  size_append (size_uint64 _) (size_string _)

theorem Session.size_eq (s : Session) : size s = (encode s).length :=
  size_append (size_append (size_append (size_append (size_append (size_append (size_append
    (size_append (size_append (size_append (size_append (size_append (size_append
      (size_fixedBytes _) (size_uint16 _)) (SessionId.size_eq _)) (Status.size_eq _))
      (size_uint64 _)) (Schedule.size_eq _)) (CoinConstraints.size_eq _)) (FeePolicy.size_eq _))
      (size_option Multisig.size_eq _)) (Registry.size_eq _)) (Escrow.Record.size_eq _))
      (size_option EscrowFailure.size_eq _)) (size_bool _)) (size_list LogEntry.size_eq _)

end EscrowMix
