import EscrowMix.Proofs.Codec.Laws

/-!
The binary forms of the protocol's data are lawful, from numbers up to the registry of the parties.
For each type the module says which values are written and read back; where a type holds addresses,
it says where in the input their texts stand.
-/

namespace EscrowMix

namespace Codec

variable {α : Type} [Codec α] {x : Reader (List String)} {fits : α → Prop}

/-! ### Blocks and numbers -/

theorem exact_block (n : Nat) : Exact (readBlock n) id (·.length = n) :=
  .of_only (streams_readBlock n) takes_readBlock fun {bs block} h => by
    have hread := h []
    rw [List.append_nil] at hread
    obtain ⟨hbs, hn⟩ := readBlock_eq_ok hread
    exact ⟨hn, by rw [hbs, List.append_nil, id]⟩

/-- The number that bytes make has these lowest bytes and no others. -/
theorem littleEndian_ofLittleEndian (bs : Bytes) :
    littleEndian bs.length (ofLittleEndian bs) = bs ∧ ofLittleEndian bs < 256 ^ bs.length := by
  induction bs with
  | nil => exact ⟨rfl, Nat.one_pos⟩
  | cons b bs ih =>
    have hb : b.toNat < 256 := b.toNat_lt
    have hlow : UInt8.ofNat (b.toNat + 256 * ofLittleEndian bs) = b := by
      rw [← UInt8.toNat_inj, UInt8.toNat_ofNat']
      omega
    have hhigh : (b.toNat + 256 * ofLittleEndian bs) / 256 = ofLittleEndian bs := by omega
    rw [ofLittleEndian, List.length_cons, littleEndian, hlow, hhigh, ih.1, Nat.pow_succ]
    exact ⟨rfl, by omega⟩

theorem exact_number (w : Nat) : Exact (readNumber w) (littleEndian w) (· < 256 ^ w) :=
  (exact_block w).refine rfl takes_readNumber fun block hlen => by
    subst hlen
    obtain ⟨hbytes, hlt⟩ := littleEndian_ofLittleEndian block
    exact .inl ⟨_, rfl, hlt, hbytes⟩

theorem exact_uint8 : Exact (read : Reader UInt8) encode fun _ => True :=
  (exact_number 1).refine rfl (fun _ => readsBack_uint8 _) fun _ hn =>
    .inl ⟨_, rfl, trivial, congrArg (littleEndian 1) (UInt8.toNat_ofNat_of_lt' hn)⟩

theorem exact_uint16 : Exact (read : Reader UInt16) encode fun _ => True :=
  (exact_number 2).refine rfl (fun _ => readsBack_uint16 _) fun _ hn =>
    .inl ⟨_, rfl, trivial, congrArg (littleEndian 2) (UInt16.toNat_ofNat_of_lt' hn)⟩

theorem exact_uint32 : Exact (read : Reader UInt32) encode fun _ => True :=
  (exact_number 4).refine rfl (fun _ => readsBack_uint32 _) fun _ hn =>
    .inl ⟨_, rfl, trivial, congrArg (littleEndian 4) (UInt32.toNat_ofNat_of_lt' hn)⟩

theorem exact_uint64 : Exact (read : Reader UInt64) encode fun _ => True :=
  (exact_number 8).refine rfl (fun _ => readsBack_uint64 _) fun _ hn =>
    .inl ⟨_, rfl, trivial, congrArg (littleEndian 8) (UInt64.toNat_ofNat_of_lt' hn)⟩

theorem readsBack_int64 (n : Int64) : ReadsBack n := by
  refine (takes_readNumber n.toUInt64.toNat_lt).last ?_
  rw [UInt64.ofNat_toNat]
  exact takes_pure n

theorem exact_int64 : Exact (read : Reader Int64) encode fun _ => True :=
  (exact_number 8).refine rfl (fun _ => readsBack_int64 _) fun _ hn =>
    .inl ⟨_, rfl, trivial, congrArg (littleEndian 8) (UInt64.toNat_ofNat_of_lt' hn)⟩

theorem exact_bool : Exact (read : Reader Bool) encode fun _ => True :=
  exact_uint8.refine rfl (fun {b} _ => readsBack_bool b) fun n _ => by
    split
    · exact .inl ⟨false, rfl, trivial, rfl⟩
    · exact .inl ⟨true, rfl, trivial, rfl⟩
    · exact .inr ⟨_, rfl⟩

theorem exact_fixedBytes (n : Nat) : Exact (read : Reader (FixedBytes n)) encode fun _ => True :=
  (exact_block n).refine rfl (fun {b} _ => readsBack_fixedBytes b) fun block hlen => by
    rw [FixedBytes.ofBytes?, dif_pos hlen]
    exact .inl ⟨⟨block, hlen⟩, rfl, trivial, rfl⟩

/-! ### Sequences, options and maps -/

theorem matches_many (h : Matches (read : Reader α) encode x fits) (n : Nat) :
    Matches (readMany n : Reader (List α)) (·.flatMap encode) (manyTexts x n)
      fun as => as.length = n ∧ ∀ a ∈ as, fits a := by
  induction n with
  | zero =>
    refine (matches_pure []).congr (fun as has => has ▸ rfl) fun as => ?_
    rw [List.length_eq_zero_iff]
    exact ⟨fun has => ⟨has, has ▸ nofun⟩, And.left⟩
  | succ n ih =>
    have hread : (readMany (n + 1) : Reader (List α)) =
        both read (readMany n) >>= fun p => pure (p.1 :: p.2) := by
      simp only [readMany, both, bind_assoc, pure_bind]
    refine (h.both ih).refine hread (fun {as} has => ?_) fun p hp => ?_
    · obtain ⟨hlen, hall⟩ := has
      have hmany := takes_readMany (g := id) fun a ha => h.back (hall a ha)
      rwa [hlen, List.map_id] at hmany
    · obtain ⟨hfirst, hlen, hrest⟩ := hp
      exact .inl ⟨_, rfl, ⟨congrArg (· + 1) hlen, List.forall_mem_cons.2 ⟨hfirst, hrest⟩⟩,
        List.flatMap_cons⟩

theorem Matches.list (h : Matches (read : Reader α) encode x fits) :
    Matches (read : Reader (List α)) encode (listTexts x)
      fun as => as.length < UInt32.size ∧ ∀ a ∈ as, fits a := by
  refine Matches.after (fun as : List α => UInt32.ofNat as.length) exact_uint32 (fun n _ => ?_)
    fun _ _ => trivial
  refine (matches_many h n.toNat).congr (fun _ _ => rfl) fun as => ?_
  have hlen : as.length = n.toNat ↔ as.length < UInt32.size ∧ UInt32.ofNat as.length = n := by
    rw [← UInt32.toNat_inj, UInt32.toNat_ofNat']
    have hn : n.toNat < UInt32.size := n.toNat_lt
    constructor
    · intro h
      exact ⟨h ▸ hn, by rw [h]; exact Nat.mod_eq_of_lt hn⟩
    · rintro ⟨hlt, h⟩
      rwa [Nat.mod_eq_of_lt hlt] at h
  rw [hlen]
  tauto

theorem Matches.option (h : Matches (read : Reader α) encode x fits) :
    Matches (read : Reader (Option α)) encode (optionTexts x) fun o => ∀ a ∈ o, fits a := by
  refine (Matches.after (v := fun o : Option α => o.elim [] encode)
    (fun o : Option α => if o.isSome then 1 else 0) exact_uint8 (fun tag _ => ?_)
    fun _ _ => trivial).congr (fun o _ => ?_) fun _ => Iff.rfl
  · split
    · refine h.refine (f := fun a => pure (some a)) rfl (fun {o} ho => ?_) fun a ha =>
        .inl ⟨some a, rfl, ⟨fun _ hb => Option.some.inj hb ▸ ha, rfl⟩, rfl⟩
      cases o with
      | none => exact absurd ho.2 (show (0 : UInt8) ≠ 1 by decide)
      | some a => exact (h.back (ho.1 a rfl)).last (takes_pure _)
    · refine (matches_pure none).congr (fun o ho => ho ▸ rfl) fun o => ?_
      cases o <;> simp
    · next hone hzero =>
      refine matches_fail _ _ _ fun o ho => ?_
      cases o with
      | none => exact hzero ho.2.symm
      | some a => exact hone ho.2.symm
  · cases o <;> rfl

theorem Exact.list (h : Exact (read : Reader α) encode fits) :
    Exact (read : Reader (List α)) encode fun as => as.length < UInt32.size ∧ ∀ a ∈ as, fits a :=
  (Matches.list h).exact (silent_skip _).list

theorem Exact.option (h : Exact (read : Reader α) encode fits) :
    Exact (read : Reader (Option α)) encode fun o => ∀ a ∈ o, fits a :=
  (Matches.option h).exact (silent_skip _).option

/-- The address texts of the three roles. -/
def roleTexts (x : Reader (List String)) : Reader (List String) := together x (together x x)

theorem Silent.roles (hx : Silent x) : Silent (roleTexts x) := hx.together (hx.together hx)

theorem Matches.roleMap (h : Matches (read : Reader α) encode x fits) :
    Matches (read : Reader (RoleMap α)) encode (roleTexts x) fun m => ∀ role, fits (m.get role) := by
  have hread : (read : Reader (RoleMap α)) =
      Codec.both read (Codec.both read read) >>= fun p => pure ⟨p.1, p.2.1, p.2.2⟩ := by
    simp only [Codec.both, bind_assoc, pure_bind]
    rfl
  refine (h.both (h.both h)).refine hread (fun hm => RoleMap.readsBack fun role => h.back (hm role))
    fun ⟨a, b, c⟩ ⟨ha, hb, hc⟩ => .inl ⟨⟨a, b, c⟩, rfl, fun role => ?_, ?_⟩
  · cases role with
    | sender => exact ha
    | mixer => exact hb
    | guarantor => exact hc
  · have hflat : encode (⟨a, b, c⟩ : RoleMap α) = [a, b, c].flatMap encode := rfl
    simp only [hflat, List.flatMap_cons, List.flatMap_nil, List.append_nil]

theorem Exact.roleMap (h : Exact (read : Reader α) encode fits) :
    Exact (read : Reader (RoleMap α)) encode fun m => ∀ role, fits (m.get role) :=
  (Matches.roleMap h).exact (silent_skip _).roles

theorem exact_bytes : Exact (read : Reader Bytes) encode fun bs => bs.length < UInt32.size :=
  Matches.congr exact_uint8.list (fun _ _ => rfl) fun bs => by simp

theorem exact_string : Exact (read : Reader String) encode IsWritable :=
  exact_bytes.refine rfl readsBack_string fun bs hbs => by
    cases hd : Utf8.decode bs with
    | error fault => exact .inr ⟨_, rfl⟩
    | ok cs =>
      have henc : Utf8.encode (String.ofList cs).toList = bs := by
        rw [String.toList_ofList, Utf8.encode_of_decode hd]
      refine .inl ⟨String.ofList cs, rfl, ?_, ?_⟩
      · rwa [IsWritable, henc]
      · exact congrArg (encode (α := Bytes)) henc

end Codec

open Codec

/-! ### Data without addresses -/

theorem Amount.exact : Exact (read : Reader Amount) encode fun _ => True :=
  exact_uint64.refine rfl (fun _ => Amount.readsBack _) fun _ _ => .inl ⟨_, rfl, trivial, rfl⟩

theorem Txid.exact : Exact (read : Reader Txid) encode fun _ => True :=
  (exact_fixedBytes 32).refine rfl (fun _ => Txid.readsBack _) fun _ _ =>
    .inl ⟨_, rfl, trivial, rfl⟩

theorem SessionId.exact : Exact (read : Reader SessionId) encode fun _ => True :=
  (exact_fixedBytes 16).refine rfl (fun _ => SessionId.readsBack _) fun _ _ =>
    .inl ⟨_, rfl, trivial, rfl⟩

theorem Script.exact :
    Exact (read : Reader Script) encode fun s => s.bytes.length < UInt32.size :=
  exact_bytes.refine rfl Script.readsBack fun _ h => .inl ⟨_, rfl, h, rfl⟩

theorem CoinConstraints.exact :
    Exact (read : Reader CoinConstraints) encode fun c => c.bytes.length < UInt32.size :=
  exact_bytes.refine rfl CoinConstraints.readsBack fun _ h => .inl ⟨_, rfl, h, rfl⟩

theorem PublicKey.exact : Exact (read : Reader PublicKey) encode fun _ => True :=
  exact_bytes.refine rfl (fun _ => PublicKey.readsBack _) fun bs _ => by
    cases hk : PublicKey.ofBytes bs with
    | error f => exact .inr ⟨_, rfl⟩
    | ok k => exact .inl ⟨k, rfl, trivial, congrArg encode (PublicKey.bytes_of_ofBytes hk)⟩

theorem Role.exact : Exact (read : Reader Role) encode fun _ => True :=
  exact_uint8.refine rfl (fun _ => Role.readsBack _) fun n _ => by
    split
    · exact .inl ⟨sender, rfl, trivial, rfl⟩
    · exact .inl ⟨mixer, rfl, trivial, rfl⟩
    · exact .inl ⟨guarantor, rfl, trivial, rfl⟩
    · exact .inr ⟨_, rfl⟩

theorem Status.rank_of_all {n : Nat} {s : Status} (h : all[n]? = some s) : s.rank = n := by
  obtain ⟨hn, -⟩ := List.getElem?_eq_some_iff.1 h
  have hnodup : all.Nodup := by decide
  exact ((List.getElem?_inj hn hnodup).1 (h.trans (all_rank s).symm)).symm

theorem Status.exact : Exact (read : Reader Status) encode fun _ => True :=
  exact_uint8.refine rfl (fun _ => Status.readsBack _) fun tag _ => by
    cases hs : all[tag.toNat]? with
    | none => exact .inr ⟨_, rfl⟩
    | some s =>
      have htag : UInt8.ofNat s.rank = tag := by rw [rank_of_all hs, UInt8.ofNat_toNat]
      exact .inl ⟨s, rfl, trivial, congrArg (encode (α := UInt8)) htag⟩

theorem FeePolicy.exact : Exact (read : Reader FeePolicy) encode fun _ => True :=
  (Amount.exact.both (exact_uint16.both exact_uint16)).refine
    (f := fun p => pure ⟨p.1, p.2.1, p.2.2⟩)
    (by simp only [both, bind_assoc, pure_bind]; rfl) (fun _ => FeePolicy.readsBack _)
    fun _ _ => .inl ⟨_, rfl, trivial, List.append_assoc ..⟩

theorem Deposit.exact :
    Exact (read : Reader Deposit) encode fun d => d.script.bytes.length < UInt32.size :=
  (Txid.exact.both (exact_uint32.both Script.exact)).refine
    (f := fun p => pure ⟨p.1, p.2.1, p.2.2⟩)
    (by simp only [both, bind_assoc, pure_bind]; rfl) Deposit.readsBack
    fun _ h => .inl ⟨_, rfl, h.2.2, List.append_assoc ..⟩

namespace Escrow.Record

/-- The record can be written and is read back. -/
structure Fits (r : Record) : Prop where
  signedCount : r.signedCount ≤ signatureThreshold
  candidate : ∀ tx ∈ r.candidate, tx.length < UInt32.size
  deposits : ∀ role, ∀ d ∈ r.deposit role, d.script.bytes.length < UInt32.size

theorem exact : Exact (read : Reader Record) encode Fits :=
  (exact_bytes.option.both (exact_uint8.both (Deposit.exact.option.roleMap.both
    exact_bool.roleMap))).refine
    (f := fun p => if signatureThreshold < p.2.1 then fail excessSignatures
      else pure ⟨p.1, p.2.1, p.2.2.1, p.2.2.2⟩)
    (by
      simp only [both, bind_assoc, pure_bind]
      rfl)
    (fun h => readsBack h.signedCount h.candidate h.deposits)
    fun p hp => by
      split
      · exact .inr ⟨_, rfl⟩
      · next hcount =>
        exact .inl ⟨_, rfl, ⟨UInt8.not_lt.1 hcount, hp.1, hp.2.2.1⟩, by
          simp only [← List.append_assoc]
          rfl⟩

end Escrow.Record

namespace EscrowFailure

/-- The tag of the kind of failure. -/
def tag : EscrowFailure → UInt8
  | insufficientConfirmations .. => 1
  | missingOutput _ => 2
  | scriptMismatch _ => 3
  | underpaid .. => 4
  | wrongAddress _ => 5
  | sharedOutput .. => 6

/-- What is written after the tag. -/
def fields : EscrowFailure → Bytes
  | insufficientConfirmations role confirmations required =>
    encode role ++ (encode confirmations ++ encode required)
  | missingOutput role | scriptMismatch role | wrongAddress role => encode role
  | underpaid role required actual => encode role ++ (encode required ++ encode actual)
  | sharedOutput role holder => encode role ++ encode holder

theorem encode_eq (f : EscrowFailure) : encode f = encode f.tag ++ f.fields := by
  cases f <;> rfl

theorem exact : Exact (read : Reader EscrowFailure) encode fun _ => True := by
  refine Matches.congr (Exact.after (v := fields) tag exact_uint8 (fun n _ => ?_)
    fun _ _ => trivial) (fun f _ => (encode_eq f).symm) fun _ => Iff.rfl
  split
  · refine (Role.exact.both (exact_uint32.both exact_uint32)).made
      (fun p => insufficientConfirmations p.1 p.2.1 p.2.2)
      (by simp only [both, bind_assoc, pure_bind]) (fun _ _ => ⟨⟨trivial, rfl⟩, rfl⟩) fun f hf => ?_
    cases f with
    | insufficientConfirmations role c r => exact ⟨(role, c, r), ⟨trivial, trivial, trivial⟩, rfl⟩
    | _ => simp [tag] at hf
  · refine Role.exact.made missingOutput rfl (fun _ _ => ⟨⟨trivial, rfl⟩, rfl⟩) fun f hf => ?_
    cases f with
    | missingOutput role => exact ⟨role, trivial, rfl⟩
    | _ => simp [tag] at hf
  · refine Role.exact.made scriptMismatch rfl (fun _ _ => ⟨⟨trivial, rfl⟩, rfl⟩) fun f hf => ?_
    cases f with
    | scriptMismatch role => exact ⟨role, trivial, rfl⟩
    | _ => simp [tag] at hf
  · refine (Role.exact.both (Amount.exact.both Amount.exact)).made
      (fun p => underpaid p.1 p.2.1 p.2.2)
      (by simp only [both, bind_assoc, pure_bind]) (fun _ _ => ⟨⟨trivial, rfl⟩, rfl⟩) fun f hf => ?_
    cases f with
    | underpaid role required actual =>
      exact ⟨(role, required, actual), ⟨trivial, trivial, trivial⟩, rfl⟩
    | _ => simp [tag] at hf
  · refine Role.exact.made wrongAddress rfl (fun _ _ => ⟨⟨trivial, rfl⟩, rfl⟩) fun f hf => ?_
    cases f with
    | wrongAddress role => exact ⟨role, trivial, rfl⟩
    | _ => simp [tag] at hf
  · refine (Role.exact.both Role.exact).made (fun p => sharedOutput p.1 p.2)
      (by simp only [both, bind_assoc, pure_bind]) (fun _ _ => ⟨⟨trivial, rfl⟩, rfl⟩) fun f hf => ?_
    cases f with
    | sharedOutput role holder => exact ⟨(role, holder), ⟨trivial, trivial⟩, rfl⟩
    | _ => simp [tag] at hf
  · next h1 h2 h3 h4 h5 h6 =>
    refine matches_fail _ _ _ fun f hf => ?_
    cases f <;> simp_all [tag]

end EscrowFailure

/-! ### Data with addresses -/

namespace Address

/-- The address is read back. -/
structure Fits (a : Address) : Prop where
  canonical : a.Canonical
  writable : IsWritable a.text

/-- The text of an address, as it stands in the input. -/
def texts : Reader (List String) := do return [← read]

theorem writable_trim {s : String} (h : IsWritable s) : IsWritable (Text.trim s) := by
  rw [IsWritable, Text.trim, String.toList_ofList]
  exact Nat.lt_of_le_of_lt (Utf8.length_encode_le (Text.trimChars_sublist _)) h

theorem takes_texts {s : String} (h : IsWritable s) : Takes texts (encode s) [s] :=
  (readsBack_string h).last (takes_pure _)

theorem streams_parsed (s : String) : Streams (match parse s with
    | .ok a => pure a
    | .error e => fail (.other e.message) : Reader Address) := by
  split
  · exact streams_pure _
  · exact streams_fail _

/-- An address is read from the bytes of a text that it is what is left of. -/
theorem eq_of_takes {bs : Bytes} {a : Address} (h : Takes read bs a) :
    ∃ s, bs = encode s ∧ IsWritable s ∧ parse s = .ok a := by
  obtain ⟨front, back, s, rfl, hs, h⟩ :=
    exact_string.streams.takes_bind (fun _ => streams_parsed _) h
  split at h
  · next hparse =>
    obtain ⟨rfl, rfl⟩ := takes_pure_iff.1 h
    refine ⟨s, ?_, exact_string.fits_of_takes hs, hparse⟩
    rw [List.append_nil, exact_string.only (silent_skip _) hs]
  · exact absurd h not_takes_fail

theorem lawful : Matches (read : Reader Address) encode texts Fits where
  streams := exact_string.streams.bind fun _ => streams_parsed _
  back h := readsBack h.writable h.canonical
  fits_of_takes h := by
    obtain ⟨s, -, hw, hparse⟩ := eq_of_takes h
    refine ⟨canonical_of_parse hparse, ?_⟩
    rw [← (parse_eq_ok.1 hparse).1]
    exact writable_trim hw
  respelled h h' := by
    obtain ⟨s, rfl, hw, hparse⟩ := eq_of_takes h
    obtain ⟨s', rfl, hw', hparse'⟩ := eq_of_takes h'
    have htrim : Text.trim s = Text.trim s' :=
      (parse_eq_ok.1 hparse).1.trans (parse_eq_ok.1 hparse').1.symm
    exact ⟨[s], [s'], takes_texts hw, takes_texts hw', by simp [htrim],
      fun heq => congrArg encode (List.head_eq_of_cons_eq heq)⟩
  trimmed {a} h := ⟨[a.text], takes_texts h.writable, by simpa using h.canonical.1⟩

end Address

namespace Payout

/-- The payout is read back. -/
def Fits (p : Payout) : Prop := p.address.Fits

/-- The address text of a payout. -/
def texts : Reader (List String) := together Address.texts (skip (read : Reader Amount))

theorem lawful : Matches (read : Reader Payout) encode texts Fits :=
  (Address.lawful.both Amount.exact).made (fun p => ⟨p.1, p.2⟩)
    (by simp only [both, bind_assoc, pure_bind]; rfl) (fun _ h => ⟨h.1, rfl⟩)
    fun p h => ⟨(p.address, p.amount), ⟨h, trivial⟩, rfl⟩

end Payout

namespace Schedule

/-- The schedule is read back. -/
structure Fits (s : Schedule) : Prop where
  writable : s.IsWritable
  valid : s.Valid
  canonical : s.IsCanonical

/-- The address texts of a schedule. -/
def texts : Reader (List String) := listTexts Payout.texts

theorem lawful : Matches (read : Reader Schedule) encode texts Fits :=
  Payout.lawful.list.refine rfl (fun h => readsBack h.writable h.valid h.canonical)
    fun payouts ⟨hlen, hall⟩ => by
      cases hs : ofPayouts payouts with
      | error e => exact .inr ⟨_, rfl⟩
      | ok s =>
        obtain ⟨rfl, hvalid⟩ := ofPayouts_eq_ok.1 hs
        exact .inl ⟨s, rfl, ⟨⟨hlen, fun p hp => (hall p hp).writable⟩, hvalid,
          fun p hp => (hall p hp).canonical⟩, rfl⟩

end Schedule

namespace Multisig

/-- The escrow is read back. -/
structure Fits (m : Multisig) : Prop where
  address : m.address.Fits
  script : m.script.bytes.length < UInt32.size

/-- The address text of an escrow. -/
def texts : Reader (List String) := together Address.texts (skip (read : Reader Script))

theorem lawful : Matches (read : Reader Multisig) encode texts Fits :=
  (Address.lawful.both Script.exact).made (fun p => ⟨p.1, p.2⟩)
    (by simp only [both, bind_assoc, pure_bind]; rfl) (fun _ h => ⟨⟨h.1, h.2⟩, rfl⟩)
    fun m h => ⟨(m.address, m.script), ⟨h.address, h.script⟩, rfl⟩

end Multisig

namespace Party

/-- The party is read back: it has no connection. -/
structure Fits (party : Party) : Prop where
  address : ∀ a ∈ party.address, a.Fits
  peer : party.peer = none

/-- The address text of a party, if its address is known. -/
def texts : Reader (List String) :=
  together (optionTexts Address.texts) (skip (read : Reader (Option PublicKey)))

theorem lawful : Matches (read : Reader Party) encode texts Fits :=
  (Address.lawful.option.both PublicKey.exact.option).made (fun p => ⟨p.1, p.2, none⟩)
    (by simp only [both, bind_assoc, pure_bind]; rfl) (fun _ h => ⟨⟨h.1, rfl⟩, rfl⟩)
    fun party h => ⟨(party.address, party.key), ⟨h.address, fun _ _ => trivial⟩, by rw [← h.peer]⟩

end Party

namespace Registry

/-- The registry is read back: it has no connections. -/
def Fits (g : Registry) : Prop := ∀ role, (g.parties.get role).Fits

/-- The address texts of a registry. -/
def texts : Reader (List String) :=
  together (skip (read : Reader (Option Role))) (roleTexts Party.texts)

theorem lawful : Matches (read : Reader Registry) encode texts Fits :=
  (Matches.both Role.exact.option Party.lawful.roleMap).made (fun p => ⟨p.1, p.2⟩)
    (by simp only [both, bind_assoc, pure_bind]; rfl) (fun _ h => ⟨h.2, rfl⟩)
    fun g h => ⟨(g.role, g.parties), ⟨fun _ _ => trivial, h⟩, rfl⟩

end Registry

end EscrowMix
