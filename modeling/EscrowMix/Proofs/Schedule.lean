import Mathlib.Algebra.GroupWithZero.Nat
import EscrowMix.Proofs.Except
import EscrowMix.Schedule

/-!
The sums of a schedule and its fees, as whole numbers. Whatever 64 bits can hold is computed without
loss, so the distribution spends what the three parties place into escrow, up to their parts of the
network fee.

    placed by       Sender  T + m + g + f     Mixer   T + f      Guarantor  T + f
    paid to         payees  T                 Mixer   T + m      Guarantor  T + g
    left over       3 f
-/

namespace EscrowMix

/-- The amounts of payouts together. -/
def Payout.sum (ps : List Payout) : Nat := (ps.map (·.amount.toNat)).sum

theorem Payout.sum_append (ps qs : List Payout) :
    Payout.sum (ps ++ qs) = Payout.sum ps + Payout.sum qs := by
  rw [sum, List.map_append, List.sum_append, sum, sum]

theorem Amount.ofNat?_toNat (a : Amount) : ofNat? a.toNat = some a := by
  rw [ofNat?, if_pos a.toNat_lt]
  exact congrArg some (ext_toNat (UInt64.toNat_ofNat_of_lt' a.toNat_lt))

theorem Amount.orOverflow_eq_ok {a : Option Amount} {b : Amount} :
    Amount.orOverflow a = .ok b ↔ a = some b := by
  cases a <;> simp [orOverflow]

/-! ### Numbers as amounts -/

namespace Amount

variable {n : Nat} {a : Amount}

/-- The amount of a number, or an overflow. -/
def exactly (n : Nat) : Except Schedule.Error Amount := orOverflow (ofNat? n)

theorem exactly_of_lt (h : n < UInt64.size) : ∃ a, exactly n = .ok a ∧ a.toNat = n := by
  obtain ⟨a, ha⟩ := Option.isSome_iff_exists.1 (ofNat?_isSome.2 h)
  exact ⟨a, orOverflow_eq_ok.2 ha, toNat_ofNat? ha⟩

theorem exactly_of_le (h : UInt64.size ≤ n) : exactly n = .error .amountOverflow := by
  rw [exactly, ofNat?, if_neg (Nat.not_lt.2 h)]
  rfl

theorem exactly_eq_ok : exactly n = .ok a ↔ a.toNat = n := by
  rw [exactly, orOverflow_eq_ok]
  refine ⟨toNat_ofNat?, ?_⟩
  rintro rfl
  exact ofNat?_toNat a

/-- A computation may go on with the number in place of the amount, as long as it leads from numbers
that are too large to such numbers only. -/
theorem exactly_bind {f : Amount → Except Schedule.Error Amount} (g : Nat → Nat)
    (hf : ∀ a, f a = exactly (g a.toNat)) (hg : UInt64.size ≤ n → UInt64.size ≤ g n) :
    exactly n >>= f = exactly (g n) := by
  rcases Nat.lt_or_ge n UInt64.size with hlt | hle
  · obtain ⟨a, ha, rfl⟩ := exactly_of_lt hlt
    rw [bind_of_ok ha, hf]
  · rw [exactly_of_le hle, exactly_of_le (hg hle)]
    rfl

end Amount

/-! ### The sum of the payouts -/

namespace Schedule

theorem toNat_addAmounts {acc a : Amount} {ps : List Payout} (h : addAmounts acc ps = some a) :
    a.toNat = acc.toNat + Payout.sum ps := by
  induction ps generalizing acc with
  | nil =>
    obtain rfl := Option.some.inj h
    rfl
  | cons p ps ih =>
    obtain ⟨acc', hacc, h⟩ := Option.bind_eq_some_iff.1 h
    have hstep : acc'.toNat = acc.toNat + p.amount.toNat := Amount.toNat_ofNat? hacc
    have hrest := ih h
    simp only [Payout.sum, List.map_cons, List.sum_cons] at hrest ⊢
    omega

/-- A sum is what it is as a whole number, unless that is too large. -/
theorem addAmounts_eq (acc : Amount) (ps : List Payout) :
    addAmounts acc ps = Amount.ofNat? (acc.toNat + Payout.sum ps) := by
  induction ps generalizing acc with
  | nil =>
    have hacc : Amount.ofNat? acc.toNat = some acc := Amount.ofNat?_toNat acc
    exact hacc.symm
  | cons p ps ih =>
    have hsum : Payout.sum (p :: ps) = p.amount.toNat + Payout.sum ps := List.sum_cons
    rw [addAmounts, hsum]
    cases hp : acc.add? p.amount with
    | none =>
      have hlarge : ¬acc.toNat + p.amount.toNat < UInt64.size := fun hlt => by
        have hsome := Amount.ofNat?_isSome.2 hlt
        rw [show Amount.ofNat? (acc.toNat + p.amount.toNat) = none from hp] at hsome
        cases hsome
      exact (if_neg (by omega)).symm
    | some acc' =>
      have hacc' : acc'.toNat = acc.toNat + p.amount.toNat := Amount.toNat_ofNat? hp
      rw [Option.bind_eq_bind, Option.bind_some, ih, hacc', Nat.add_assoc]

theorem total_eq (s : Schedule) :
    s.total = Amount.exactly (Payout.sum s.payouts) := by
  rw [total, addAmounts_eq]
  exact congrArg Amount.exactly (Nat.zero_add _)

theorem valid_iff {s : Schedule} :
    s.Valid ↔ (∀ p ∈ s.payouts, p.amount ≠ .zero) ∧ Payout.sum s.payouts < UInt64.size := by
  rw [Valid, Payout.sum, List.sum, List.foldr_map]

/-- Just the valid schedules are accepted. -/
theorem ofPayouts_eq_ok {ps : List Payout} {s : Schedule} :
    ofPayouts ps = .ok s ↔ ps = s.payouts ∧ s.Valid := by
  have hmk : ∀ s' : Schedule, s' = s ↔ s'.payouts = s.payouts := fun s' => by cases s'; cases s; simp
  rw [valid_iff, ofPayouts]
  cases hzero : ps.find? (·.amount = .zero) with
  | some p =>
    have hp : p ∈ ps ∧ p.amount = .zero :=
      ⟨List.mem_of_find?_eq_some hzero, by simpa using List.find?_some hzero⟩
    refine ⟨nofun, ?_⟩
    rintro ⟨rfl, hpos, -⟩
    exact absurd hp.2 (hpos p hp.1)
  | none =>
    have hpos : ∀ p ∈ ps, p.amount ≠ .zero := by simpa using List.find?_eq_none.1 hzero
    have htotal : ∀ total, Schedule.total ⟨ps⟩ = .ok total ↔
        Amount.ofNat? (Payout.sum ps) = some total := fun total => by
      rw [total_eq, Amount.exactly, Amount.orOverflow_eq_ok]
    simp only [bind_eq_ok, pure_eq_ok, htotal, hmk]
    constructor
    · rintro ⟨total, ht, rfl⟩
      exact ⟨rfl, hpos, Amount.ofNat?_isSome.1 (Option.isSome_of_eq_some ht)⟩
    · rintro ⟨rfl, -, hlt⟩
      obtain ⟨total, ht⟩ := Option.isSome_iff_exists.1 (Amount.ofNat?_isSome.2 hlt)
      exact ⟨total, ht, rfl⟩

theorem toNat_total {s : Schedule} {total : Amount} (h : s.total = .ok total) :
    total.toNat = Payout.sum s.payouts := by
  have hsum := toNat_addAmounts (Amount.orOverflow_eq_ok.1 h)
  rw [hsum]
  exact Nat.zero_add _

end Schedule

/-! ### Fees -/

namespace FeePolicy

open Amount (exactly exactly_of_lt exactly_of_le exactly_eq_ok exactly_bind)

variable {f : FeePolicy} {s : Schedule} {mixer guarantor : Option Address} {a b c : Amount}

theorem toNat_plus (h : plus a b = .ok c) : c.toNat = a.toNat + b.toNat :=
  Amount.toNat_ofNat? (Amount.orOverflow_eq_ok.1 h)

theorem requiredCoins_sender (h : f.requiredCoins .sender s = .ok c) :
    ∃ total m g : Amount, s.total = .ok total ∧ f.mixerFee s = .ok m ∧ f.guarantorFee s = .ok g ∧
      c.toNat = total.toNat + m.toNat + g.toNat + f.feePerParty.toNat := by
  simp only [requiredCoins, bind_eq_ok] at h
  obtain ⟨total, ht, m, hm, g, hg, x, hx, y, hy, hc⟩ := h
  have hx' := toNat_plus hx
  have hy' := toNat_plus hy
  have hc' := toNat_plus hc
  exact ⟨total, m, g, ht, hm, hg, by omega⟩

theorem requiredCoins_other {role : Role} (hr : role ≠ .sender)
    (h : f.requiredCoins role s = .ok c) :
    ∃ total : Amount, s.total = .ok total ∧ c.toNat = total.toNat + f.feePerParty.toNat := by
  cases role with
  | sender => exact absurd rfl hr
  | mixer | guarantor =>
    simp only [requiredCoins, bind_eq_ok] at h
    obtain ⟨total, ht, hc⟩ := h
    exact ⟨total, ht, toNat_plus hc⟩

/-- A share of a sum, as a whole number. -/
def shareOf (total : Nat) (bps : UInt16) : Nat := total * bps.toNat / bpsDenominator

/-- What the Sender has to place into escrow, as a whole number. -/
def senderSum (f : FeePolicy) (s : Schedule) : Nat :=
  Payout.sum s.payouts + shareOf (Payout.sum s.payouts) f.mixerBps +
    shareOf (Payout.sum s.payouts) f.guarantorBps + f.feePerParty.toNat

/-- A share of the payouts, once their sum is known. -/
theorem share_of_total {total : Amount} (h : s.total = .ok total) (bps : UInt16) :
    s.total >>= (share · bps) = exactly (shareOf total.toNat bps) := by
  rw [bind_of_ok h]
  rfl

theorem requiredCoins_sender_eq (f : FeePolicy) (s : Schedule) :
    f.requiredCoins .sender s = exactly (f.senderSum s) := by
  rcases Nat.lt_or_ge (Payout.sum s.payouts) UInt64.size with hlt | hle
  · obtain ⟨t, ht, hsum⟩ := exactly_of_lt hlt
    rw [← Schedule.total_eq] at ht
    rw [senderSum, ← hsum, requiredCoins, bind_of_ok ht]
    -- both fees are computed first, then each of the three sums takes in one more number
    refine (congrArg (· >>= _) (share_of_total ht f.mixerBps)).trans ?_
    refine exactly_bind
      (fun m => t.toNat + m + shareOf t.toNat f.guarantorBps + f.feePerParty.toNat)
      (fun m => ?_) (by omega)
    refine (congrArg (· >>= _) (share_of_total ht f.guarantorBps)).trans ?_
    refine exactly_bind (fun g => t.toNat + m.toNat + g + f.feePerParty.toNat)
      (fun g => ?_) (by omega)
    refine exactly_bind (fun x => x + g.toNat + f.feePerParty.toNat) (fun x => ?_) (by omega)
    exact exactly_bind (· + f.feePerParty.toNat) (fun y => rfl) (by omega)
  · have hsum : UInt64.size ≤ f.senderSum s := by
      rw [senderSum]
      omega
    rw [requiredCoins, Schedule.total_eq, exactly_of_le hle, exactly_of_le hsum]
    rfl

theorem requiredCoins_other_eq {role : Role} (hr : role ≠ .sender) (f : FeePolicy)
    (s : Schedule) : f.requiredCoins role s =
      exactly (Payout.sum s.payouts + f.feePerParty.toNat) := by
  rw [requiredCoins, Schedule.total_eq]
  refine exactly_bind (· + f.feePerParty.toNat) (fun total => ?_) (by omega)
  cases role with
  | sender => exact absurd rfl hr
  | mixer | guarantor => rfl

theorem requiredCoins_sender_isOk_iff :
    (∃ c, f.requiredCoins .sender s = .ok c) ↔ f.senderSum s < UInt64.size := by
  rw [requiredCoins_sender_eq]
  refine ⟨fun ⟨c, hc⟩ => exactly_eq_ok.1 hc ▸ c.toNat_lt, fun h => ?_⟩
  obtain ⟨c, hc, -⟩ := exactly_of_lt h
  exact ⟨c, hc⟩

/-- Every role can be told what it has to place into escrow just when 64 bits hold what the Sender
has to, which is the most. -/
theorem requiredCoins_isOk_iff :
    (∀ role, ∃ c, f.requiredCoins role s = .ok c) ↔ f.senderSum s < UInt64.size := by
  refine ⟨fun h => requiredCoins_sender_isOk_iff.1 (h .sender), fun h role => ?_⟩
  by_cases hr : role = .sender
  · rw [hr]
    exact requiredCoins_sender_isOk_iff.2 h
  · rw [senderSum] at h
    obtain ⟨c, hc, -⟩ := exactly_of_lt (n := Payout.sum s.payouts + f.feePerParty.toNat) (by omega)
    exact ⟨c, (requiredCoins_other_eq hr f s).trans hc⟩

/-- And then the outputs can be computed, too. -/
theorem distributionOutputs_of_senderSum (h : f.senderSum s < UInt64.size)
    (mixer guarantor : Address) : ∃ toMixer toGuarantor : Amount,
      toMixer.toNat = Payout.sum s.payouts + shareOf (Payout.sum s.payouts) f.mixerBps ∧
      toGuarantor.toNat = Payout.sum s.payouts + shareOf (Payout.sum s.payouts) f.guarantorBps ∧
      f.distributionOutputs s (some mixer) (some guarantor) =
        .ok (s.payouts ++ [⟨mixer, toMixer⟩, ⟨guarantor, toGuarantor⟩]) := by
  rw [senderSum] at h
  obtain ⟨t, ht, htsum⟩ := exactly_of_lt (n := Payout.sum s.payouts) (by omega)
  rw [← Schedule.total_eq] at ht
  rw [← htsum] at h ⊢
  obtain ⟨m, hm, hmsum⟩ := exactly_of_lt (n := shareOf t.toNat f.mixerBps) (by omega)
  obtain ⟨g, hg, hgsum⟩ := exactly_of_lt (n := shareOf t.toNat f.guarantorBps) (by omega)
  rw [← hmsum, ← hgsum] at h ⊢
  obtain ⟨toMixer, hx, hxsum⟩ := exactly_of_lt (n := t.toNat + m.toNat) (by omega)
  obtain ⟨toGuarantor, hy, hysum⟩ := exactly_of_lt (n := t.toNat + g.toNat) (by omega)
  refine ⟨toMixer, toGuarantor, hxsum, hysum, ?_⟩
  have hmixer : f.mixerFee s = .ok m := (share_of_total ht f.mixerBps).trans hm
  have hguarantor : f.guarantorFee s = .ok g := (share_of_total ht f.guarantorBps).trans hg
  simp only [distributionOutputs, bind_eq_ok, pure_eq_ok]
  exact ⟨t, ht, m, hmixer, toMixer, hx, g, hguarantor, toGuarantor, hy, rfl⟩

theorem sum_distributionOutputs {outputs : List Payout}
    (h : f.distributionOutputs s mixer guarantor = .ok outputs) :
    ∃ total m g : Amount, s.total = .ok total ∧ f.mixerFee s = .ok m ∧ f.guarantorFee s = .ok g ∧
      Payout.sum outputs = 3 * total.toNat + m.toNat + g.toNat := by
  unfold distributionOutputs at h
  split at h
  · cases h
  · cases h
  · simp only [bind_eq_ok, pure_eq_ok] at h
    obtain ⟨total, ht, m, hm, x, hx, g, hg, y, hy, rfl⟩ := h
    have hx' := toNat_plus hx
    have hy' := toNat_plus hy
    have htotal := Schedule.toNat_total ht
    refine ⟨total, m, g, ht, hm, hg, ?_⟩
    rw [Payout.sum_append]
    simp only [Payout.sum, List.map_cons, List.map_nil, List.sum_cons, List.sum_nil] at htotal ⊢
    omega

/-- What the three roles have to place into escrow is what the distribution pays and three times the
network fee of a party. -/
theorem distribution_balances {outputs : List Payout} {required : Role → Amount}
    (hr : ∀ role, f.requiredCoins role s = .ok (required role))
    (ho : f.distributionOutputs s mixer guarantor = .ok outputs) :
    Payout.sum outputs + 3 * f.feePerParty.toNat =
      (Role.all.map fun role => (required role).toNat).sum := by
  obtain ⟨total, m, g, ht, hm, hg, hsum⟩ := sum_distributionOutputs ho
  obtain ⟨total₁, m₁, g₁, ht₁, hm₁, hg₁, hs⟩ := requiredCoins_sender (hr .sender)
  obtain ⟨total₂, ht₂, hmixer⟩ := requiredCoins_other (by decide) (hr .mixer)
  obtain ⟨total₃, ht₃, hguarantor⟩ := requiredCoins_other (by decide) (hr .guarantor)
  obtain rfl : total = total₁ := Except.ok.inj (ht.symm.trans ht₁)
  obtain rfl : total = total₂ := Except.ok.inj (ht.symm.trans ht₂)
  obtain rfl : total = total₃ := Except.ok.inj (ht.symm.trans ht₃)
  obtain rfl : m = m₁ := Except.ok.inj (hm.symm.trans hm₁)
  obtain rfl : g = g₁ := Except.ok.inj (hg.symm.trans hg₁)
  simp only [Role.all, List.map_cons, List.map_nil, List.sum_cons, List.sum_nil]
  omega

/-! ### What the sums come to -/

/-- A computation on payouts with the sum `T` has the value `n`: it ends with that amount if 64 bits
hold both numbers, and else with an overflow. -/
def Computes (T n : Nat) (x : Except Schedule.Error Amount) : Prop :=
  (T < UInt64.size ∧ n < UInt64.size → ∃ a, x = .ok a ∧ a.toNat = n) ∧
    (¬(T < UInt64.size ∧ n < UInt64.size) → x = .error .amountOverflow)

theorem computes_exactly {T n : Nat} (h : UInt64.size ≤ T → UInt64.size ≤ n) :
    Computes T n (exactly n) :=
  ⟨fun hn => exactly_of_lt hn.2, fun hn => exactly_of_le (by omega)⟩

theorem computes_share (s : Schedule) (bps : UInt16) :
    Computes (Payout.sum s.payouts) (shareOf (Payout.sum s.payouts) bps)
      (s.total >>= (share · bps)) := by
  rcases Nat.lt_or_ge (Payout.sum s.payouts) UInt64.size with hlt | hle
  · obtain ⟨t, ht, hsum⟩ := exactly_of_lt hlt
    rw [← Schedule.total_eq] at ht
    rw [share_of_total ht, hsum]
    exact computes_exactly fun hle => absurd hlt (Nat.not_lt.2 hle)
  · rw [Schedule.total_eq, exactly_of_le hle]
    exact ⟨fun h => absurd h.1 (Nat.not_lt.2 hle), fun _ => rfl⟩

/-- Whatever the payouts and the rates, every amount is exact as long as 64 bits hold it and the sum
of the payouts; else the computation ends with an overflow, and never with another amount. If the
Sender can be told what it has to place into escrow, then so can the others, and the outputs of the
distribution can be computed: the payouts in order, then what the Mixer and the Guarantor receive.
They are worth what the three roles place into escrow, less three network fees. -/
theorem amounts_exact (f : FeePolicy) (s : Schedule) :
    let T := Payout.sum s.payouts
    let m := shareOf T f.mixerBps
    let g := shareOf T f.guarantorBps
    let fee := f.feePerParty.toNat
    (Computes T T s.total ∧ Computes T m (f.mixerFee s) ∧ Computes T g (f.guarantorFee s) ∧
      Computes T (T + m + g + fee) (f.requiredCoins .sender s) ∧
      ∀ role, role ≠ .sender → Computes T (T + fee) (f.requiredCoins role s)) ∧
    ∀ c, f.requiredCoins .sender s = .ok c → ∀ mixer guarantor,
      ∃ (required : Role → Amount) (toMixer toGuarantor : Amount),
        (∀ role, f.requiredCoins role s = .ok (required role)) ∧
        toMixer.toNat = T + m ∧ toGuarantor.toNat = T + g ∧
        f.distributionOutputs s (some mixer) (some guarantor) =
          .ok (s.payouts ++ [⟨mixer, toMixer⟩, ⟨guarantor, toGuarantor⟩]) ∧
        (Role.all.map fun role => (required role).toNat).sum =
          Payout.sum (s.payouts ++ [⟨mixer, toMixer⟩, ⟨guarantor, toGuarantor⟩]) + 3 * fee := by
  intro T m g fee
  refine ⟨⟨?_, computes_share s _, computes_share s _, ?_, fun role hr => ?_⟩,
    fun c hc mixer guarantor => ?_⟩
  · rw [Schedule.total_eq]
    exact computes_exactly fun h => h
  · rw [requiredCoins_sender_eq]
    exact computes_exactly (by omega)
  · rw [requiredCoins_other_eq hr]
    exact computes_exactly (by omega)
  · have hlt : f.senderSum s < UInt64.size := requiredCoins_sender_isOk_iff.1 ⟨c, hc⟩
    obtain ⟨required, hr⟩ := Classical.axiomOfChoice (requiredCoins_isOk_iff.2 hlt)
    obtain ⟨toMixer, toGuarantor, hm, hg, hout⟩ :=
      distributionOutputs_of_senderSum hlt mixer guarantor
    exact ⟨required, toMixer, toGuarantor, hr, hm, hg, hout, (distribution_balances hr hout).symm⟩

/-- The largest payouts that the Sender can pay for under the standard fees. Both shares are rounded
down. -/
theorem amounts_exact_of_largest :
    let s : Schedule := ⟨[⟨⟨"one"⟩, ⟨18309423398222870089⟩⟩, ⟨⟨"two"⟩, ⟨1⟩⟩]⟩
    standard.requiredCoins .sender s = .ok ⟨18446744073709551615⟩ ∧
      ∃ (required : Role → Amount) (toMixer toGuarantor : Amount),
        (∀ role, standard.requiredCoins role s = .ok (required role)) ∧
        toMixer.toNat = 18400970515213984440 ∧ toGuarantor.toNat = 18355196956718427265 ∧
        standard.distributionOutputs s (some ⟨"mixer"⟩) (some ⟨"guarantor"⟩) =
          .ok (s.payouts ++ [⟨⟨"mixer"⟩, toMixer⟩, ⟨⟨"guarantor"⟩, toGuarantor⟩]) ∧
        (Role.all.map fun role => (required role).toNat).sum = 55065590870155281795 + 3 * 10000 := by
  intro s
  have hc : standard.requiredCoins .sender s = .ok ⟨18446744073709551615⟩ := by
    rw [requiredCoins_sender_eq, exactly_eq_ok]
    decide +kernel
  obtain ⟨required, toMixer, toGuarantor, hr, hm, hg, hout, hsum⟩ :=
    (amounts_exact standard s).2 _ hc ⟨"mixer"⟩ ⟨"guarantor"⟩
  have hm : toMixer.toNat = 18400970515213984440 := hm.trans (by decide +kernel)
  have hg : toGuarantor.toNat = 18355196956718427265 := hg.trans (by decide +kernel)
  refine ⟨hc, required, toMixer, toGuarantor, hr, hm, hg, hout, hsum.trans ?_⟩
  rw [Payout.sum_append]
  simp only [Payout.sum, List.map_cons, List.map_nil, List.sum_cons, List.sum_nil, hm, hg]
  decide +kernel

/-- One more satoshi is too much. -/
example : standard.requiredCoins .sender
    ⟨[⟨⟨"one"⟩, ⟨18309423398222870089⟩⟩, ⟨⟨"two"⟩, ⟨2⟩⟩]⟩ = .error .amountOverflow := by
  rw [requiredCoins_sender_eq]
  exact exactly_of_le (by decide +kernel)

end FeePolicy

end EscrowMix
