import EscrowMix.Proofs.Codec

/-!
What a fingerprint identifies. The written form of a schedule shows where it ends and which schedule
it is, whatever is written behind it, so the bytes of a schedule and its fees can be told apart in
one way only. This holds of every schedule that can be written, also of one that no reader accepts:
of payouts of nothing, of sums past 64 bits, and of addresses that are blank or have blanks around
them. The reader cannot show it, since it trims and refuses; the parts of the written form do.

The rest is the digest: two terms with one fingerprint are the same, or a collision.
-/

namespace EscrowMix

namespace Codec

variable {α β : Type} {w : α → Bytes} {v : β → Bytes} {fits : α → Prop} {fits' : β → Prop}

/-- What is written for the values that fit shows where it ends and which value it is. -/
structure Delimits (w : α → Bytes) (fits : α → Prop) : Prop where
  split : ∀ {a b x y}, fits a → fits b → w a ++ x = w b ++ y → a = b ∧ x = y

/-- Whatever is read back as it was, is written so. -/
theorem delimits_of_readsBack [Codec α] (h : ∀ a, fits a → ReadsBack a) :
    Delimits (encode (α := α)) fits := by
  refine ⟨fun {a b x y} ha hb he => ?_⟩
  have hread : (read : Reader α) (encode b ++ y) = .ok (a, x) := he ▸ h a ha x
  rw [h b hb y] at hread
  obtain ⟨rfl, rfl⟩ := Prod.mk.inj (Except.ok.inj hread)
  exact ⟨rfl, rfl⟩

/-- Two values in a row. -/
theorem Delimits.append (h : Delimits w fits) (h' : Delimits v fits') :
    Delimits (fun p : α × β => w p.1 ++ v p.2) fun p => fits p.1 ∧ fits' p.2 := by
  refine ⟨fun {p q x y} hp hq he => ?_⟩
  rw [List.append_assoc, List.append_assoc] at he
  obtain ⟨hfirst, he⟩ := h.split hp.1 hq.1 he
  obtain ⟨hsecond, he⟩ := h'.split hp.2 hq.2 he
  exact ⟨Prod.ext hfirst hsecond, he⟩

/-- A value that is written as another one. -/
theorem Delimits.made {g : β → α} (h : Delimits w fits) (hg : Function.Injective g)
    (hv : ∀ b, v b = w (g b)) (hfits : ∀ b, fits' b → fits (g b)) : Delimits v fits' := by
  refine ⟨fun {a b x y} ha hb he => ?_⟩
  rw [hv, hv] at he
  obtain ⟨hab, hxy⟩ := h.split (hfits a ha) (hfits b hb) he
  exact ⟨hg hab, hxy⟩

/-- As many values in a row on both sides. -/
theorem Delimits.flatMap (h : Delimits w fits) {as bs : List α} {x y : Bytes}
    (hlen : as.length = bs.length) (ha : ∀ a ∈ as, fits a) (hb : ∀ b ∈ bs, fits b)
    (he : as.flatMap w ++ x = bs.flatMap w ++ y) : as = bs ∧ x = y := by
  induction as generalizing bs with
  | nil =>
    obtain rfl := List.length_eq_zero_iff.1 hlen.symm
    exact ⟨rfl, he⟩
  | cons a as ih =>
    cases bs with
    | nil => cases hlen
    | cons b bs =>
      rw [List.flatMap_cons, List.flatMap_cons, List.append_assoc, List.append_assoc] at he
      obtain ⟨hhead, he⟩ := h.split (ha a List.mem_cons_self) (hb b List.mem_cons_self) he
      obtain ⟨htail, he⟩ := ih (Nat.succ.inj hlen) (fun a h => ha a (List.mem_cons_of_mem _ h))
        (fun b h => hb b (List.mem_cons_of_mem _ h)) he
      exact ⟨List.cons_eq_cons.2 ⟨hhead, htail⟩, he⟩

theorem Delimits.list [Codec α] (h : Delimits (encode (α := α)) fits) :
    Delimits (encode (α := List α)) fun as => as.length < UInt32.size ∧ ∀ a ∈ as, fits a := by
  refine ⟨fun {as bs x y} ha hb he => ?_⟩
  have hnumber : Delimits (encode (α := UInt32)) fun _ => True :=
    delimits_of_readsBack fun n _ => readsBack_uint32 n
  have he : encode (UInt32.ofNat as.length) ++ (as.flatMap encode ++ x) =
      encode (UInt32.ofNat bs.length) ++ (bs.flatMap encode ++ y) := by
    rw [← List.append_assoc, ← List.append_assoc]
    exact he
  obtain ⟨hlen, he⟩ := hnumber.split trivial trivial he
  have hlen := congrArg UInt32.toNat hlen
  rw [UInt32.toNat_ofNat_of_lt' ha.1, UInt32.toNat_ofNat_of_lt' hb.1] at hlen
  exact h.flatMap hlen ha.2 hb.2 he

end Codec

open Codec

theorem Payout.delimits :
    Delimits (encode (α := Payout)) fun p => Codec.IsWritable p.address.text := by
  have htext : Delimits (encode (α := String)) Codec.IsWritable :=
    delimits_of_readsBack fun _ => readsBack_string
  have hamount : Delimits (encode (α := Amount)) fun _ => True :=
    delimits_of_readsBack fun a _ => Amount.readsBack a
  refine (htext.append hamount).made (g := fun p => (p.address.text, p.amount)) ?_ (fun _ => rfl)
    fun _ h => ⟨h, trivial⟩
  rintro ⟨⟨text⟩, amount⟩ ⟨⟨text'⟩, amount'⟩ he
  obtain ⟨rfl, rfl⟩ := Prod.mk.inj he
  rfl

theorem FeePolicy.delimits : Delimits (encode (α := FeePolicy)) fun _ => True :=
  delimits_of_readsBack fun f _ => FeePolicy.readsBack f

theorem FeePolicy.encode_ne_nil (f : FeePolicy) : encode f ≠ [] := nofun

/-- Messages that differ and have the same digest. -/
structure Keccak.Collision (m m' : Bytes) : Prop where
  differ : m ≠ m'
  digest : Keccak.digest m = Keccak.digest m'

namespace Schedule

variable {s s' s'' : Schedule} {f f' : FeePolicy}

theorem delimits : Delimits (encode (α := Schedule)) IsWritable := by
  refine Payout.delimits.list.made (g := payouts) ?_ (fun _ => rfl) fun _ h => h
  rintro ⟨payouts⟩ ⟨payouts'⟩ rfl
  rfl

theorem termsInput_inj (h : s.IsWritable) (h' : s'.IsWritable)
    (he : s.termsInput f = s'.termsInput f') : s = s' ∧ f = f' := by
  obtain ⟨hs, hf⟩ := delimits.split h h' he
  have hf : encode f ++ [] = encode f' ++ [] := by rw [hf]
  exact ⟨hs, (FeePolicy.delimits.split trivial trivial hf).1⟩

theorem fingerprintInput_inj (h : s.IsWritable) (h' : s'.IsWritable)
    (he : s.fingerprintInput = s'.fingerprintInput) : s = s' := by
  have he : encode s ++ [] = encode s' ++ [] := congrArg (· ++ []) he
  exact (delimits.split h h' he).1

/-- Behind the schedule the fees follow, or nothing. -/
theorem termsInput_ne_fingerprintInput (h : s.IsWritable) (h' : s'.IsWritable) :
    s.termsInput f ≠ s'.fingerprintInput := by
  intro he
  have he : encode s ++ encode f = encode s' ++ [] := he.trans (List.append_nil _).symm
  exact f.encode_ne_nil (delimits.split h h' he).2

theorem collision_of_ne {m m' : Bytes} (hne : m ≠ m')
    (hf : Fingerprint.mk (Keccak.digest m) = ⟨Keccak.digest m'⟩) : Keccak.Collision m m' :=
  ⟨hne, congrArg Fingerprint.digest hf⟩

/-- The bytes behind a fingerprint belong to one schedule and, for that of the terms, to one fee
policy, and never to fingerprints of both kinds. So two fingerprints are the same only for the same
terms, unless two messages with one digest are at hand. -/
theorem fingerprints_bind (h : s.IsWritable) (h' : s'.IsWritable) (h'' : s''.IsWritable) :
    (s.termsInput f = s'.termsInput f' → s = s' ∧ f = f') ∧
    (s.fingerprintInput = s'.fingerprintInput → s = s') ∧
    s.termsInput f ≠ s''.fingerprintInput ∧
    (s.termsFingerprint f = s'.termsFingerprint f' →
      (s = s' ∧ f = f') ∨ Keccak.Collision (s.termsInput f) (s'.termsInput f')) ∧
    (s.fingerprint = s'.fingerprint →
      s = s' ∨ Keccak.Collision s.fingerprintInput s'.fingerprintInput) ∧
    (s.termsFingerprint f = s''.fingerprint →
      Keccak.Collision (s.termsInput f) s''.fingerprintInput) := by
  have hkinds : s.termsInput f ≠ s''.fingerprintInput := termsInput_ne_fingerprintInput h h''
  refine ⟨termsInput_inj h h', fingerprintInput_inj h h', hkinds, fun hf => ?_, fun hf => ?_,
    collision_of_ne hkinds⟩
  · by_cases he : s.termsInput f = s'.termsInput f'
    · exact .inl (termsInput_inj h h' he)
    · exact .inr (collision_of_ne he hf)
  · by_cases he : s.fingerprintInput = s'.fingerprintInput
    · exact .inl (fingerprintInput_inj h h' he)
    · exact .inr (collision_of_ne he hf)

namespace Padded

/-- A payout of nothing to an address with a blank before it, and one to no address: no reader
accepts either. -/
def one : Schedule := ⟨[⟨⟨" payee"⟩, ⟨0⟩⟩, ⟨⟨""⟩, ⟨5⟩⟩]⟩

/-- The same payouts in the other order. -/
def other : Schedule := ⟨[⟨⟨""⟩, ⟨5⟩⟩, ⟨⟨" payee"⟩, ⟨0⟩⟩]⟩

end Padded

open Padded in
theorem fingerprints_bind_of_padded :
    ¬one.IsReadable ∧ ¬other.IsReadable ∧ one.IsWritable ∧ other.IsWritable ∧
    one.termsInput .standard ≠ other.termsInput .standard ∧
    one.fingerprintInput ≠ other.fingerprintInput ∧
    one.termsInput .standard ≠ other.fingerprintInput ∧
    (one.fingerprint = other.fingerprint →
      Keccak.Collision one.fingerprintInput other.fingerprintInput) := by
  have hone : one.IsWritable := by decide
  have hother : other.IsWritable := by decide
  have hne : one ≠ other := by decide
  obtain ⟨hterms, hschedule, hkinds, -, hcollision, -⟩ :=
    @fingerprints_bind one other other .standard .standard hone hother hother
  exact ⟨by decide, by decide, hone, hother, fun he => hne (hterms he).1,
    fun he => hne (hschedule he), hkinds, fun hf => (hcollision hf).resolve_left hne⟩

end Schedule

end EscrowMix
