import EscrowMix.Proofs.Schedule
import EscrowMix.Proofs.Utf8
import EscrowMix.Verification
import EscrowMix.Wallet

/-!
What is written can be read back. Values are written one after the other, so reading is studied on a
byte string that goes on: a reader takes the bytes of a value from the front and leaves whatever
follows. A sequence can be written as long as four bytes hold its length. Addresses and schedules
are checked when they are read, so of these only some are read back.
-/

namespace EscrowMix

namespace Codec

variable {α β : Type} {r : Reader α} {f : α → Reader β} {bs bs' : Bytes} {a : α} {b : β}

theorem run_bind (r : Reader α) (f : α → Reader β) (bs : Bytes) :
    (r >>= f) bs = r bs >>= fun out => f out.1 out.2 := rfl

/-- The reader takes these bytes from the front, for this value. -/
def Takes (r : Reader α) (bs : Bytes) (a : α) : Prop := ∀ rest, r (bs ++ rest) = .ok (a, rest)

/-- The reader refuses every input that begins with these bytes. -/
def Refuses (r : Reader α) (bs : Bytes) : Prop := ∀ rest, ∃ e, r (bs ++ rest) = .error e

/-- The value is read back from what is written for it. -/
def ReadsBack [Codec α] (a : α) : Prop := Takes read (encode a) a

/-! ### Readers in a row -/

theorem takes_pure (a : α) : Takes (pure a) [] a := fun _ => rfl

theorem refuses_fail (e : Error) : Refuses (fail e : Reader α) [] := fun _ => ⟨e, rfl⟩

theorem Takes.bind (hr : Takes r bs a) (hf : Takes (f a) bs' b) :
    Takes (r >>= f) (bs ++ bs') b := by
  intro rest
  have hr := hr (bs' ++ rest)
  rw [List.append_assoc]
  exact bind_eq_ok.2 ⟨_, hr, hf rest⟩

theorem Takes.bind_refuses (hr : Takes r bs a) (hf : Refuses (f a) bs') :
    Refuses (r >>= f) (bs ++ bs') := by
  intro rest
  have hr := hr (bs' ++ rest)
  obtain ⟨e, hf⟩ := hf rest
  refine ⟨e, ?_⟩
  rw [List.append_assoc, run_bind, hr]
  exact hf

theorem Refuses.bind (hr : Refuses r bs) : Refuses (r >>= f) (bs ++ bs') := by
  intro rest
  obtain ⟨e, hr⟩ := hr (bs' ++ rest)
  refine ⟨e, ?_⟩
  rw [List.append_assoc, run_bind, hr]
  rfl

/-- The last of several readers. -/
theorem Takes.last (hr : Takes r bs a) (hf : Takes (f a) [] b) : Takes (r >>= f) bs b := by
  have h := hr.bind hf
  rwa [List.append_nil] at h

theorem Takes.last_refuses (hr : Takes r bs a) (hf : Refuses (f a) []) :
    Refuses (r >>= f) bs := by
  have h := hr.bind_refuses hf
  rwa [List.append_nil] at h

theorem Takes.decode [Codec α] (h : Takes read bs a) : decode bs = .ok a := by
  have h := h []
  rw [List.append_nil] at h
  unfold Codec.decode
  rw [h]

theorem Refuses.decode [Codec α] (h : Refuses (read : Reader α) bs) :
    ∃ e, (decode bs : Except Error α) = .error e := by
  obtain ⟨e, h⟩ := h []
  rw [List.append_nil] at h
  refine ⟨e, ?_⟩
  unfold Codec.decode
  rw [h]

theorem Refuses.bind_nil (hr : Refuses r bs) : Refuses (r >>= f) bs := by
  have h : Refuses (r >>= f) (bs ++ []) := hr.bind
  rwa [List.append_nil] at h

/-! ### Blocks and numbers -/

theorem split?_append (bs rest : Bytes) : split? bs.length (bs ++ rest) = some (bs, rest) := by
  induction bs with
  | nil => rfl
  | cons b bs ih =>
    rw [List.cons_append, List.length_cons, split?, ih]
    rfl

theorem takes_readBlock {n : Nat} (h : bs.length = n) : Takes (readBlock n) bs bs := by
  intro rest
  subst h
  rw [readBlock, split?_append]

theorem length_littleEndian (w n : Nat) : (littleEndian w n).length = w := by
  induction w generalizing n with
  | zero => rfl
  | succ w ih => rw [littleEndian, List.length_cons, ih]

/-- The lowest bytes of a number make the number again, if it has no others. -/
theorem ofLittleEndian_littleEndian {w n : Nat} (h : n < 256 ^ w) :
    ofLittleEndian (littleEndian w n) = n := by
  induction w generalizing n with
  | zero =>
    rw [Nat.pow_zero, Nat.lt_one_iff] at h
    rw [h]
    rfl
  | succ w ih =>
    have hlow : (UInt8.ofNat n).toNat = n % 256 := UInt8.toNat_ofNat'
    have hhigh : n / 256 < 256 ^ w := Nat.div_lt_of_lt_mul (by rwa [Nat.pow_succ'] at h)
    rw [littleEndian, ofLittleEndian, hlow, ih hhigh]
    exact Nat.mod_add_div n 256

theorem takes_readNumber {w n : Nat} (h : n < 256 ^ w) :
    Takes (readNumber w) (littleEndian w n) n := by
  refine (takes_readBlock (length_littleEndian w n)).last ?_
  rw [ofLittleEndian_littleEndian h]
  exact takes_pure n

theorem readsBack_uint8 (n : UInt8) : ReadsBack n := by
  refine (takes_readNumber n.toNat_lt).last ?_
  rw [UInt8.ofNat_toNat]
  exact takes_pure n

theorem readsBack_uint16 (n : UInt16) : ReadsBack n := by
  refine (takes_readNumber n.toNat_lt).last ?_
  rw [UInt16.ofNat_toNat]
  exact takes_pure n

theorem readsBack_uint32 (n : UInt32) : ReadsBack n := by
  refine (takes_readNumber n.toNat_lt).last ?_
  rw [UInt32.ofNat_toNat]
  exact takes_pure n

theorem readsBack_uint64 (n : UInt64) : ReadsBack n := by
  refine (takes_readNumber n.toNat_lt).last ?_
  rw [UInt64.ofNat_toNat]
  exact takes_pure n

theorem readsBack_bool (b : Bool) : ReadsBack b := by
  cases b
  · exact (readsBack_uint8 0).last (takes_pure false)
  · exact (readsBack_uint8 1).last (takes_pure true)

theorem readsBack_fixedBytes {n : Nat} (b : FixedBytes n) : ReadsBack b := by
  refine (takes_readBlock b.length_eq).last ?_
  rw [FixedBytes.ofBytes?_bytes]
  exact takes_pure b

/-! ### Sequences, options and text -/

/-- Values one after the other, each read as what `g` says. -/
theorem takes_readMany [Codec α] {g : α → α} {as : List α}
    (h : ∀ a ∈ as, Takes read (encode a) (g a)) :
    Takes (readMany as.length) (as.flatMap encode) (as.map g) := by
  induction as with
  | nil => exact takes_pure []
  | cons a as ih =>
    rw [List.flatMap_cons]
    refine (h a List.mem_cons_self).bind ?_
    exact (ih fun a ha => h a (List.mem_cons_of_mem _ ha)).last (takes_pure _)

/-- One value that is refused is enough. -/
theorem refuses_readMany [Codec α] {g : α → α} {as : List α} {bad : α} (hbad : bad ∈ as)
    (h : ∀ a ∈ as, Takes read (encode a) (g a) ∨ Refuses (read : Reader α) (encode a))
    (hr : Refuses (read : Reader α) (encode bad)) :
    Refuses (readMany as.length : Reader (List α)) (as.flatMap encode) := by
  induction as with
  | nil => cases hbad
  | cons a as ih =>
    rw [List.flatMap_cons]
    rcases h a List.mem_cons_self with ha | ha
    · refine ha.bind_refuses ?_
      rcases List.mem_cons.1 hbad with rfl | hbad
      · -- It is both read and refused.
        obtain ⟨e, he⟩ := hr []
        cases (ha []).symm.trans he
      · have hrest := ih hbad fun a ha => h a (List.mem_cons_of_mem _ ha)
        exact hrest.bind_nil
    · exact ha.bind

theorem takes_length [Codec α] {as : List α} (h : as.length < UInt32.size) :
    Takes (read : Reader UInt32) (encode (UInt32.ofNat as.length)) (UInt32.ofNat as.length) ∧
      (UInt32.ofNat as.length).toNat = as.length :=
  ⟨readsBack_uint32 _, UInt32.toNat_ofNat_of_lt' h⟩

theorem takes_list [Codec α] {g : α → α} {as : List α} (hl : as.length < UInt32.size)
    (h : ∀ a ∈ as, Takes read (encode a) (g a)) : Takes read (encode as) (as.map g) := by
  obtain ⟨hread, hlen⟩ := takes_length hl
  refine hread.bind ?_
  rw [hlen]
  exact takes_readMany h

theorem refuses_list [Codec α] {g : α → α} {as : List α} {bad : α}
    (hl : as.length < UInt32.size) (hbad : bad ∈ as)
    (h : ∀ a ∈ as, Takes read (encode a) (g a) ∨ Refuses (read : Reader α) (encode a))
    (hr : Refuses (read : Reader α) (encode bad)) :
    Refuses (read : Reader (List α)) (encode as) := by
  obtain ⟨hread, hlen⟩ := takes_length hl
  refine hread.bind_refuses ?_
  rw [hlen]
  exact refuses_readMany hbad h hr

theorem readsBack_list [Codec α] {as : List α} (hl : as.length < UInt32.size)
    (h : ∀ a ∈ as, ReadsBack a) : ReadsBack as := by
  have ht := takes_list (g := id) hl h
  rwa [List.map_id] at ht

theorem readsBack_bytes (h : bs.length < UInt32.size) : ReadsBack bs :=
  readsBack_list h fun b _ => readsBack_uint8 b

theorem readsBack_none [Codec α] : ReadsBack (none : Option α) :=
  (readsBack_uint8 0).last (takes_pure none)

theorem readsBack_some [Codec α] {a : α} (h : ReadsBack a) : ReadsBack (some a) :=
  (readsBack_uint8 1).bind (h.last (takes_pure _))

theorem readsBack_option [Codec α] {o : Option α} (h : ∀ a, o = some a → ReadsBack a) :
    ReadsBack o := by
  cases o with
  | none => exact readsBack_none
  | some a => exact readsBack_some (h a rfl)

/-- A text that can be written. -/
def IsWritable (s : String) : Prop := (Utf8.encode s.toList).length < UInt32.size

instance (s : String) : Decidable (IsWritable s) :=
  inferInstanceAs (Decidable ((Utf8.encode s.toList).length < UInt32.size))

theorem isWritable_iff (s : String) : IsWritable s ↔ s.utf8ByteSize < UInt32.size := by
  rw [IsWritable, Utf8.length_encode]

theorem readsBack_string {s : String} (h : IsWritable s) : ReadsBack s := by
  refine (readsBack_bytes h).last ?_
  rw [Utf8.decode_encode]
  have hs : String.ofList s.toList = s := String.ofList_toList
  exact fun rest => congrArg (fun s => Except.ok (s, rest)) hs

end Codec

open Codec

/-! ### The data of the protocol -/

theorem Role.readsBack (role : Role) : ReadsBack role := by
  cases role
  · exact (readsBack_uint8 1).last (takes_pure _)
  · exact (readsBack_uint8 2).last (takes_pure _)
  · exact (readsBack_uint8 3).last (takes_pure _)

theorem Status.readsBack (s : Status) : ReadsBack s := by
  refine (readsBack_uint8 _).last ?_
  have hrank : (UInt8.ofNat s.rank).toNat = s.rank := by cases s <;> rfl
  rw [hrank, all_rank]
  exact takes_pure s

theorem SessionId.readsBack (id : SessionId) : ReadsBack id :=
  (readsBack_fixedBytes id.uuid).last (takes_pure id)

theorem Amount.readsBack (a : Amount) : ReadsBack a :=
  (readsBack_uint64 a.sats).last (takes_pure a)

theorem Txid.readsBack (t : Txid) : ReadsBack t :=
  (readsBack_fixedBytes t.hash).last (takes_pure t)

theorem Script.readsBack {s : Script} (h : s.bytes.length < UInt32.size) : ReadsBack s :=
  (readsBack_bytes h).last (takes_pure s)

theorem FeePolicy.readsBack (f : FeePolicy) : ReadsBack f := by
  have h : encode f = encode f.feePerParty ++ (encode f.mixerBps ++ encode f.guarantorBps) :=
    List.append_assoc ..
  rw [ReadsBack, h]
  refine (Amount.readsBack _).bind ((readsBack_uint16 _).bind ?_)
  exact (readsBack_uint16 _).last (takes_pure f)

theorem CoinConstraints.readsBack {c : CoinConstraints} (h : c.bytes.length < UInt32.size) :
    ReadsBack c :=
  (readsBack_bytes h).last (takes_pure c)

theorem Deposit.readsBack {d : Deposit} (h : d.script.bytes.length < UInt32.size) :
    ReadsBack d := by
  have henc : encode d = encode d.txid ++ (encode d.vout ++ encode d.script) :=
    List.append_assoc ..
  rw [ReadsBack, henc]
  refine (Txid.readsBack _).bind ((readsBack_uint32 _).bind ?_)
  exact (Script.readsBack h).last (takes_pure d)

/-- A key is no longer than 65 bytes. -/
theorem PublicKey.length_lt (k : PublicKey) : k.bytes.length < UInt32.size := by
  have h := k.faultless
  unfold fault? at h
  split at h
  · cases h
  · next hlen =>
    have hle : k.bytes.length ≤ 65 := by omega
    exact Nat.lt_of_le_of_lt hle (by decide)

theorem PublicKey.readsBack (k : PublicKey) : ReadsBack k := by
  refine (readsBack_bytes k.length_lt).last ?_
  rw [ofBytes_bytes]
  exact takes_pure k

/-! ### Addresses and schedules -/

namespace Address

/-- The address that is read for a written one: it has lost its blanks at both ends. -/
def trimmed (a : Address) : Address := ⟨Text.trim a.text⟩

/-- Something is left of the address once the blanks at both ends are gone. -/
def IsReadable (a : Address) : Prop := Text.trim a.text ≠ ""

instance (a : Address) : Decidable a.IsReadable :=
  inferInstanceAs (Decidable (Text.trim a.text ≠ ""))

variable {a : Address}

theorem Canonical.isReadable (h : a.Canonical) : a.IsReadable := by
  obtain ⟨ht, hne⟩ := h
  rw [IsReadable, show Text.trim a.text = a.text from ht]
  exact hne

theorem Canonical.trimmed_eq (h : a.Canonical) : a.trimmed = a := by
  rw [trimmed, show Text.trim a.text = a.text from h.1]

theorem takes (hw : IsWritable a.text) (h : a.IsReadable) : Takes read (encode a) a.trimmed := by
  refine (readsBack_string hw).last ?_
  have hparse : parse a.text = .ok a.trimmed := if_neg h
  rw [hparse]
  exact takes_pure _

theorem refuses (hw : IsWritable a.text) (h : ¬a.IsReadable) :
    Refuses (read : Reader Address) (encode a) := by
  refine (readsBack_string hw).last_refuses ?_
  have hparse : parse a.text = .error .emptyAddress := if_pos (Decidable.not_not.1 h)
  rw [hparse]
  exact refuses_fail _

theorem readsBack (hw : IsWritable a.text) (h : a.Canonical) : ReadsBack a := by
  have ht := takes hw h.isReadable
  rwa [h.trimmed_eq] at ht

end Address

/-- The payout that is read for a written one. -/
def Payout.trimmed (p : Payout) : Payout := ⟨p.address.trimmed, p.amount⟩

theorem Payout.takes {p : Payout} (hw : IsWritable p.address.text) (h : p.address.IsReadable) :
    Takes read (encode p) p.trimmed :=
  (Address.takes hw h).bind ((Amount.readsBack p.amount).last (takes_pure _))

theorem Payout.refuses {p : Payout} (hw : IsWritable p.address.text) (h : ¬p.address.IsReadable) :
    Refuses (read : Reader Payout) (encode p) :=
  (Address.refuses hw h).bind

namespace Schedule

/-- The schedule that is read for a written one. -/
def trimmed (s : Schedule) : Schedule := ⟨s.payouts.map Payout.trimmed⟩

/-- A schedule that can be written. -/
def IsWritable (s : Schedule) : Prop :=
  s.payouts.length < UInt32.size ∧ ∀ p ∈ s.payouts, Codec.IsWritable p.address.text

/-- A schedule that can be read once it is written: `ofPayouts` accepts it, and no address is blank. -/
def IsReadable (s : Schedule) : Prop := s.Valid ∧ ∀ p ∈ s.payouts, p.address.IsReadable

/-- The addresses are as `Address.parse` gives them. -/
def IsCanonical (s : Schedule) : Prop := ∀ p ∈ s.payouts, p.address.Canonical

instance (s : Schedule) : Decidable s.IsWritable :=
  inferInstanceAs (Decidable (s.payouts.length < UInt32.size ∧
    ∀ p ∈ s.payouts, Codec.IsWritable p.address.text))

instance (s : Schedule) : Decidable s.IsReadable :=
  inferInstanceAs (Decidable (s.Valid ∧ ∀ p ∈ s.payouts, p.address.IsReadable))

instance (s : Schedule) : Decidable s.IsCanonical :=
  inferInstanceAs (Decidable (∀ p ∈ s.payouts, p.address.Canonical))

variable {s : Schedule}

theorem valid_trimmed : s.trimmed.Valid ↔ s.Valid := by
  have hsum : Payout.sum s.trimmed.payouts = Payout.sum s.payouts := by
    simp only [trimmed, Payout.sum, List.map_map]
    rfl
  rw [valid_iff, valid_iff, hsum]
  simp only [trimmed, List.forall_mem_map]
  rfl

theorem takes (hw : s.IsWritable) (h : s.IsReadable) : Takes read (encode s) s.trimmed := by
  have hpayouts : Takes read (encode s.payouts) (s.payouts.map Payout.trimmed) :=
    takes_list hw.1 fun p hp => Payout.takes (hw.2 p hp) (h.2 p hp)
  refine hpayouts.last ?_
  have hvalid : ofPayouts (s.payouts.map Payout.trimmed) = .ok s.trimmed :=
    ofPayouts_eq_ok.2 ⟨rfl, valid_trimmed.2 h.1⟩
  rw [hvalid]
  exact takes_pure _

theorem refuses (hw : s.IsWritable) (h : ¬s.IsReadable) :
    Refuses (read : Reader Schedule) (encode s) := by
  by_cases hall : ∀ p ∈ s.payouts, p.address.IsReadable
  · have hpayouts : Takes read (encode s.payouts) (s.payouts.map Payout.trimmed) :=
      takes_list hw.1 fun p hp => Payout.takes (hw.2 p hp) (hall p hp)
    refine hpayouts.last_refuses ?_
    cases hr : ofPayouts (s.payouts.map Payout.trimmed) with
    | error e => exact refuses_fail _
    | ok s' =>
      obtain ⟨hs', hvalid⟩ := ofPayouts_eq_ok.1 hr
      obtain rfl : s' = s.trimmed := congrArg mk hs'.symm
      exact absurd ⟨valid_trimmed.1 hvalid, hall⟩ h
  · simp only [not_forall] at hall
    obtain ⟨bad, hbad, hblank⟩ := hall
    refine (refuses_list (g := Payout.trimmed) hw.1 hbad (fun p hp => ?_)
      (Payout.refuses (hw.2 bad hbad) hblank)).bind_nil
    by_cases hp' : p.address.IsReadable
    · exact .inl (Payout.takes (hw.2 p hp) hp')
    · exact .inr (Payout.refuses (hw.2 p hp) hp')

theorem IsCanonical.isReadable (h : s.IsCanonical) (hv : s.Valid) : s.IsReadable :=
  ⟨hv, fun p hp => (h p hp).isReadable⟩

theorem IsCanonical.trimmed_eq (h : s.IsCanonical) : s.trimmed = s := by
  refine congrArg mk ((List.map_congr_left fun p hp => ?_).trans (List.map_id _))
  rw [Payout.trimmed, (h p hp).trimmed_eq]
  rfl

theorem readsBack (hw : s.IsWritable) (hv : s.Valid) (h : s.IsCanonical) : ReadsBack s := by
  have ht := takes hw (h.isReadable hv)
  rwa [h.trimmed_eq] at ht

end Schedule

/-! ### The data of a session -/

theorem Multisig.readsBack {m : Multisig} (ha : m.address.Canonical)
    (hw : IsWritable m.address.text) (hs : m.script.bytes.length < UInt32.size) : ReadsBack m :=
  (Address.readsBack hw ha).bind ((Script.readsBack hs).last (takes_pure m))

/-- A map is read as what is read for each role. -/
theorem RoleMap.takes {α : Type} [Codec α] {m : RoleMap α} {g : α → α}
    (h : ∀ role, Takes read (encode (m.get role)) (g (m.get role))) :
    Takes read (encode m) (m.map fun _ a => g a) := by
  have henc : encode m = encode m.sender ++ (encode m.mixer ++ encode m.guarantor) := by
    have hflat : encode m = [m.sender, m.mixer, m.guarantor].flatMap encode := rfl
    rw [hflat, List.flatMap_cons, List.flatMap_cons, List.flatMap_singleton]
  rw [henc]
  exact (h .sender).bind ((h .mixer).bind ((h .guarantor).last (takes_pure _)))

theorem RoleMap.readsBack {α : Type} [Codec α] {m : RoleMap α}
    (h : ∀ role, ReadsBack (m.get role)) : ReadsBack m :=
  RoleMap.takes (g := id) h

/-- A party is read without its connection. -/
theorem Party.takes {party : Party}
    (h : ∀ a, party.address = some a → a.Canonical ∧ IsWritable a.text) :
    Takes read (encode party) { party with peer := none } := by
  have haddress : ReadsBack party.address :=
    readsBack_option fun a ha => Address.readsBack (h a ha).2 (h a ha).1
  have hkey : ReadsBack party.key := readsBack_option fun k _ => PublicKey.readsBack k
  exact haddress.bind (hkey.last (takes_pure _))

theorem Registry.takes {g : Registry}
    (h : ∀ role a, g.address role = some a → a.Canonical ∧ IsWritable a.text) :
    Takes read (encode g) g.disconnected := by
  have hrole : ReadsBack g.role := readsBack_option fun role _ => role.readsBack
  have hparties : Takes read (encode g.parties) g.disconnected.parties :=
    RoleMap.takes (g := fun party : Party => { party with peer := none }) fun role => Party.takes (h role)
  exact hrole.bind (hparties.last (takes_pure _))

theorem Escrow.Record.readsBack {r : Record} (hc : r.signedCount ≤ signatureThreshold)
    (hcandidate : ∀ tx, r.candidate = some tx → tx.length < UInt32.size)
    (hdeposits : ∀ role d, r.deposit role = some d → d.script.bytes.length < UInt32.size) :
    ReadsBack r := by
  have henc : encode r = encode r.candidate ++ (encode r.signedCount ++
      (encode r.deposits ++ encode r.reclaimable)) := by
    have h : encode r = encode r.candidate ++ encode r.signedCount ++ encode r.deposits ++
      encode r.reclaimable := rfl
    rw [h, List.append_assoc, List.append_assoc]
  have hdeposits : ReadsBack r.deposits := RoleMap.readsBack fun role =>
    readsBack_option fun d hd => Deposit.readsBack (hdeposits role d hd)
  have hreclaimable : ReadsBack r.reclaimable := RoleMap.readsBack fun _ => readsBack_bool _
  rw [ReadsBack, henc]
  refine (readsBack_option fun tx htx => readsBack_bytes (hcandidate tx htx)).bind ?_
  refine (readsBack_uint8 _).bind (hdeposits.bind (hreclaimable.last ?_))
  rw [if_neg (UInt8.not_lt.2 hc)]
  exact takes_pure r

theorem EscrowFailure.readsBack (f : EscrowFailure) : ReadsBack f := by
  cases f with
  | insufficientConfirmations role confirmations required =>
    have henc : encode (insufficientConfirmations role confirmations required) =
        encode (1 : UInt8) ++ (encode role ++ (encode confirmations ++ encode required)) := rfl
    rw [ReadsBack, henc]
    refine (readsBack_uint8 1).bind (role.readsBack.bind ((readsBack_uint32 _).bind ?_))
    exact (readsBack_uint32 _).last (takes_pure _)
  | missingOutput role => exact (readsBack_uint8 2).bind (role.readsBack.last (takes_pure _))
  | scriptMismatch role => exact (readsBack_uint8 3).bind (role.readsBack.last (takes_pure _))
  | underpaid role required actual =>
    have henc : encode (underpaid role required actual) =
        encode (4 : UInt8) ++ (encode role ++ (encode required ++ encode actual)) := rfl
    rw [ReadsBack, henc]
    refine (readsBack_uint8 4).bind (role.readsBack.bind (required.readsBack.bind ?_))
    exact actual.readsBack.last (takes_pure _)
  | wrongAddress role => exact (readsBack_uint8 5).bind (role.readsBack.last (takes_pure _))
  | sharedOutput role holder =>
    have henc : encode (sharedOutput role holder) =
        encode (6 : UInt8) ++ (encode role ++ encode holder) := rfl
    rw [ReadsBack, henc]
    exact (readsBack_uint8 6).bind (role.readsBack.bind (holder.readsBack.last (takes_pure _)))

end EscrowMix
