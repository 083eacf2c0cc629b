import EscrowMix.Proofs.Codec.Size
import EscrowMix.Proofs.Session.Written

/-!
The types with a binary form, and what holds for all of them. A form names a type: one of the basic
ones, one of the protocol's data, or a sequence, an option or a map over any form.
-/

namespace EscrowMix

open Codec

/-- The types with a binary form. -/
inductive Form where
  | uint8 | uint16 | uint32 | uint64 | int64 | bool
  | block (n : Nat)
  | text | txid | script | amount | key | role | status | sessionId | address | payout | schedule
  | fees | deposit | record | registry | failure | logEntry | constraints | escrow | session
  | list (form : Form)
  | option (form : Form)
  | roleMap (form : Form)

namespace Form

/-- The type itself. -/
def Value : Form → Type
  | uint8 => UInt8
  | uint16 => UInt16
  | uint32 => UInt32
  | uint64 => UInt64
  | int64 => Int64
  | bool => Bool
  | block n => FixedBytes n
  | text => String
  | txid => Txid
  | script => Script
  | amount => Amount
  | key => PublicKey
  | role => Role
  | status => Status
  | sessionId => SessionId
  | address => Address
  | payout => Payout
  | schedule => Schedule
  | fees => FeePolicy
  | deposit => Deposit
  | record => Escrow.Record
  | registry => Registry
  | failure => EscrowFailure
  | logEntry => LogEntry
  | constraints => CoinConstraints
  | escrow => Multisig
  | session => Session
  | list form => List form.Value
  | option form => Option form.Value
  | roleMap form => RoleMap form.Value

/-- Its binary form is the one that is declared for the type. -/
instance codec : (form : Form) → Codec form.Value
  | uint8 => inferInstanceAs (Codec UInt8)
  | uint16 => inferInstanceAs (Codec UInt16)
  | uint32 => inferInstanceAs (Codec UInt32)
  | uint64 => inferInstanceAs (Codec UInt64)
  | int64 => inferInstanceAs (Codec Int64)
  | bool => inferInstanceAs (Codec Bool)
  | block n => inferInstanceAs (Codec (FixedBytes n))
  | text => inferInstanceAs (Codec String)
  | txid => inferInstanceAs (Codec Txid)
  | script => inferInstanceAs (Codec Script)
  | amount => inferInstanceAs (Codec Amount)
  | key => inferInstanceAs (Codec PublicKey)
  | role => inferInstanceAs (Codec Role)
  | status => inferInstanceAs (Codec Status)
  | sessionId => inferInstanceAs (Codec SessionId)
  | address => inferInstanceAs (Codec Address)
  | payout => inferInstanceAs (Codec Payout)
  | schedule => inferInstanceAs (Codec Schedule)
  | fees => inferInstanceAs (Codec FeePolicy)
  | deposit => inferInstanceAs (Codec Deposit)
  | record => inferInstanceAs (Codec Escrow.Record)
  | registry => inferInstanceAs (Codec Registry)
  | failure => inferInstanceAs (Codec EscrowFailure)
  | logEntry => inferInstanceAs (Codec LogEntry)
  | constraints => inferInstanceAs (Codec CoinConstraints)
  | escrow => inferInstanceAs (Codec Multisig)
  | session => inferInstanceAs (Codec Session)
  | list form => have := codec form; inferInstanceAs (Codec (List form.Value))
  | option form => have := codec form; inferInstanceAs (Codec (Option form.Value))
  | roleMap form => have := codec form; inferInstanceAs (Codec (RoleMap form.Value))

/-- The values that are written and read back: addresses are trimmed and not empty, schedules are
valid, no more than two signatures are counted, registries have no connections, and no sequence is
too long for four bytes to hold its length. -/
def Fits : (form : Form) → form.Value → Prop
  | text => Codec.IsWritable
  | script => fun s => s.bytes.length < UInt32.size
  | constraints => fun c => c.bytes.length < UInt32.size
  | deposit => fun d => d.script.bytes.length < UInt32.size
  | logEntry => fun e => Codec.IsWritable e.event
  | address => Address.Fits
  | payout => Payout.Fits
  | schedule => Schedule.Fits
  | record => Escrow.Record.Fits
  | registry => Registry.Fits
  | escrow => Multisig.Fits
  | session => Session.Fits
  | list form => fun as : List form.Value => as.length < UInt32.size ∧ ∀ a ∈ as, form.Fits a
  | option form => fun o : Option form.Value => ∀ a ∈ o, form.Fits a
  | roleMap form => fun m : RoleMap form.Value => ∀ role, form.Fits (m.get role)
  | _ => fun _ => True

/-- The address texts in an input, in order. -/
def texts : (form : Form) → Reader (List String)
  | address => Address.texts
  | payout => Payout.texts
  | schedule => Schedule.texts
  | registry => Registry.texts
  | escrow => Multisig.texts
  | session => Session.texts
  | list form => listTexts form.texts
  | option form => optionTexts form.texts
  | roleMap form => roleTexts form.texts
  | form => skip (read : Reader form.Value)

theorem size_eq : (form : Form) → (v : form.Value) → size v = (encode v).length
  | uint8 => size_uint8
  | uint16 => size_uint16
  | uint32 => size_uint32
  | uint64 => size_uint64
  | int64 => size_int64
  | bool => size_bool
  | block _ => size_fixedBytes
  | text => size_string
  | txid => Txid.size_eq
  | script => Script.size_eq
  | amount => Amount.size_eq
  | key => PublicKey.size_eq
  | role => Role.size_eq
  | status => Status.size_eq
  | sessionId => SessionId.size_eq
  | address => Address.size_eq
  | payout => Payout.size_eq
  | schedule => Schedule.size_eq
  | fees => FeePolicy.size_eq
  | deposit => Deposit.size_eq
  | record => Escrow.Record.size_eq
  | registry => Registry.size_eq
  | failure => EscrowFailure.size_eq
  | logEntry => LogEntry.size_eq
  | constraints => CoinConstraints.size_eq
  | escrow => Multisig.size_eq
  | session => Session.size_eq
  | list form => size_list form.size_eq
  | option form => size_option form.size_eq
  | roleMap form => size_roleMap form.size_eq

theorem lawful : (form : Form) →
    Matches (read : Reader form.Value) encode form.texts form.Fits
  | uint8 => exact_uint8
  | uint16 => exact_uint16
  | uint32 => exact_uint32
  | uint64 => exact_uint64
  | int64 => exact_int64
  | bool => exact_bool
  | block n => exact_fixedBytes n
  | text => exact_string
  | txid => Txid.exact
  | script => Script.exact
  | amount => Amount.exact
  | key => PublicKey.exact
  | role => Role.exact
  | status => Status.exact
  | sessionId => SessionId.exact
  | address => Address.lawful
  | payout => Payout.lawful
  | schedule => Schedule.lawful
  | fees => FeePolicy.exact
  | deposit => Deposit.exact
  | record => Escrow.Record.exact
  | registry => Registry.lawful
  | failure => EscrowFailure.exact
  | logEntry => LogEntry.exact
  | constraints => CoinConstraints.exact
  | escrow => Multisig.lawful
  | session => Session.lawful
  | list form => form.lawful.list
  | option form => form.lawful.option
  | roleMap form => form.lawful.roleMap

/-- The binary form of every type is a self-delimiting round trip. The size that is told is the
number of bytes written; a value is read back from them and leaves whatever follows; a whole input
with anything behind the value is refused for what is left, and one that ends inside the value for
its end. -/
theorem self_delimiting (form : Form) (v : form.Value) (hv : form.Fits v) :
    size v = (encode v).length ∧
    (∀ rest, (read : Reader form.Value) (encode v ++ rest) = .ok (v, rest)) ∧
    (∀ rest, rest ≠ [] →
      (decode (encode v ++ rest) : Except Codec.Error form.Value) = .error .trailingBytes) ∧
    ∀ front, front <+: encode v → front ≠ encode v →
      (decode front : Except Codec.Error form.Value) = .error .endOfInput := by
  have hback : Takes read (encode v) v := form.lawful.back hv
  exact ⟨form.size_eq v, hback, fun _ hne => hback.trailingBytes hne,
    fun _ hp hne => form.lawful.streams.decode_endOfInput hback hp hne⟩

/-- Two payouts may be there; one is. -/
theorem self_delimiting_of_payouts :
    (read : Reader (List (Option Payout)))
      (encode [some (⟨⟨"payee"⟩, ⟨5⟩⟩ : Payout), none] ++ [0xFF]) =
        .ok ([some ⟨⟨"payee"⟩, ⟨5⟩⟩, none], [0xFF]) := by
  refine (self_delimiting (.list (.option .payout)) [some ⟨⟨"payee"⟩, ⟨5⟩⟩, none]
    ⟨by decide, List.forall_mem_cons.2 ⟨?_, List.forall_mem_singleton.2 nofun⟩⟩).2.1 [0xFF]
  rintro _ ⟨⟩
  exact ⟨by decide +kernel, by decide +kernel⟩

/-- The address texts in a whole input. -/
def found (form : Form) (bs : Bytes) : List String :=
  match form.texts bs with
  | .ok (ts, _) => ts
  | .error _ => []

variable {form : Form} {bs : Bytes} {v : form.Value}

theorem found_of_takes {ts : List String} (h : Takes form.texts bs ts) : form.found bs = ts := by
  have hall := h []
  rw [List.append_nil] at hall
  rw [found, hall]

theorem map_trim_eq_self {ts : List String} :
    ts.map Text.trim = ts ↔ ∀ t ∈ ts, Text.Trimmed t := by
  induction ts with
  | nil => simp
  | cons t ts ih => simp [ih, Text.Trimmed]

/-- What is read has one binary form, up to the blanks around its addresses. An input is the form
that is written for what it is read as just if none of the addresses in it has blanks around it; that
form is read as the same value again; and another input that is read as this value has other blanks
around its addresses. -/
theorem decode_canonical (form : Form) {bs : Bytes} {v : form.Value} (h : decode bs = .ok v) :
    (encode v = bs ↔ ∀ s ∈ form.found bs, Text.Trimmed s) ∧
    decode (encode v) = .ok v ∧
    ∀ bs', decode bs' = .ok v →
      (form.found bs').map Text.trim = (form.found bs).map Text.trim ∧
      (form.found bs' = form.found bs → bs' = bs) := by
  have hlaw := form.lawful
  have hread : Takes read bs v := hlaw.streams.takes_of_decode h
  have hfits := hlaw.fits_of_takes hread
  have hback := hlaw.back hfits
  refine ⟨?_, hback.decode, fun bs' h' => ?_⟩
  · obtain ⟨ts, ts', hts, hts', htrim, heq⟩ := hlaw.respelled hback hread
    rw [found_of_takes hts']
    obtain ⟨us, hus, htrimmed⟩ := hlaw.trimmed hfits
    obtain rfl := hts.unique hus
    constructor
    · intro henc
      rw [henc] at hts
      rwa [← hts.unique hts']
    · intro hall
      refine heq ?_
      rw [← map_trim_eq_self.2 htrimmed, htrim, map_trim_eq_self.2 hall]
  · obtain ⟨ts, ts', hts, hts', htrim, heq⟩ := hlaw.respelled (hlaw.streams.takes_of_decode h') hread
    rw [found_of_takes hts, found_of_takes hts']
    exact ⟨htrim, heq⟩

/-- A blank before an address is lost. -/
theorem decode_canonical_of_padded :
    decode [2, 0, 0, 0, 0x20, 0x61] = .ok (⟨"a"⟩ : Address) ∧
    (encode (⟨"a"⟩ : Address) = [2, 0, 0, 0, 0x20, 0x61] ↔ ∀ s ∈ [" a"], Text.Trimmed s) ∧
    decode (encode (⟨"a"⟩ : Address)) = .ok (⟨"a"⟩ : Address) := by
  have hdecode : decode [2, 0, 0, 0, 0x20, 0x61] = .ok (⟨"a"⟩ : Address) := by decide +kernel
  have hfound : Form.found .address [2, 0, 0, 0, 0x20, 0x61] = [" a"] := by decide +kernel
  obtain ⟨hiff, hback, -⟩ := decode_canonical .address hdecode
  rw [hfound] at hiff
  exact ⟨hdecode, hiff, hback⟩

end Form

end EscrowMix
