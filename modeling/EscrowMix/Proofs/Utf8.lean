import Mathlib.Data.List.Flatten
import Mathlib.Data.String.Basic
import Mathlib.Tactic.SplitIfs
import EscrowMix.Proofs.Except
import EscrowMix.Text.Utf8

/-!
Every text is read back from its bytes. A character is written in one to four bytes; the first byte
announces how many there are, each of the others carries six bits, and the two bounds on the second
byte exclude only what the shortest form of a character never needs. Conversely, bytes that are read
are the shortest form of what they are read as, so a text has one form only.
-/

namespace EscrowMix.Utf8

variable {n : Nat}

theorem toNat_byte (h : n < 0x100) : (UInt8.ofNat n).toNat = n := UInt8.toNat_ofNat_of_lt' h

/-- The lengths that first bytes announce, by their numbers. -/
theorem Lead.of_byte (h : n < 0x100) :
    Lead.of (UInt8.ofNat n) =
      if n < 0x80 then .one else if n < 0xC2 then .none else if n < 0xE0 then .two
      else if n < 0xF0 then .three else if n < 0xF5 then .four else .none := by
  simp only [Lead.of, UInt8.lt_iff_toNat_lt, toNat_byte h, UInt8.reduceToNat]

/-- A byte that carries six bits. -/
theorem isContinuation_byte (h : n < 0x40) : isContinuation (UInt8.ofNat (0x80 + n)) = true := by
  have hb : (UInt8.ofNat (0x80 + n)).toNat = 0x80 + n := toNat_byte (by omega)
  generalize UInt8.ofNat (0x80 + n) = b at hb
  simp only [isContinuation, UInt8.le_iff_toNat_le, UInt8.lt_iff_toNat_lt, hb, UInt8.reduceToNat,
    Bool.and_eq_true, decide_eq_true_eq]
  omega

theorem payload_byte (h : n < 0x40) : payload (UInt8.ofNat (0x80 + n)) = n := by
  have hb : (UInt8.ofNat (0x80 + n)).toNat = 0x80 + n := toNat_byte (by omega)
  unfold payload
  rw [hb]
  omega

/-- The second byte of three: no shorter form and no surrogate. -/
theorem isSecondOfThree_byte {lead : Nat} (hl : lead < 0x100) (h : n < 0x40)
    (hlow : lead = 0xE0 → 0x20 ≤ n) (hhigh : lead = 0xED → n < 0x20) :
    isSecondOfThree (UInt8.ofNat lead) (UInt8.ofNat (0x80 + n)) = true := by
  simp only [isSecondOfThree, isContinuation_byte h, Bool.true_and, Bool.and_eq_true,
    Bool.or_eq_true, bne_iff_ne, ne_eq, decide_eq_true_eq, UInt8.le_iff_toNat_le,
    UInt8.lt_iff_toNat_lt, ← UInt8.toNat_inj, UInt8.reduceToNat, toNat_byte hl,
    toNat_byte (show 0x80 + n < 0x100 by omega)]
  omega

/-- The second byte of four: no shorter form, and nothing past the last character. -/
theorem isSecondOfFour_byte {lead : Nat} (hl : lead < 0x100) (h : n < 0x40)
    (hlow : lead = 0xF0 → 0x10 ≤ n) (hhigh : lead = 0xF4 → n < 0x10) :
    isSecondOfFour (UInt8.ofNat lead) (UInt8.ofNat (0x80 + n)) = true := by
  simp only [isSecondOfFour, isContinuation_byte h, Bool.true_and, Bool.and_eq_true,
    Bool.or_eq_true, bne_iff_ne, ne_eq, decide_eq_true_eq, UInt8.le_iff_toNat_le,
    UInt8.lt_iff_toNat_lt, ← UInt8.toNat_inj, UInt8.reduceToNat, toNat_byte hl,
    toNat_byte (show 0x80 + n < 0x100 by omega)]
  omega

/-- A character is a number that is no surrogate. -/
theorem toNat_valid (c : Char) : c.toNat < 0xD800 ∨ (0xDFFF < c.toNat ∧ c.toNat < 0x110000) :=
  c.valid

variable (index : Nat) (bs : Bytes) (c : Char)

theorem decodeFrom_one (h : c.toNat < 0x80) :
    decodeFrom index (UInt8.ofNat c.toNat :: bs) = (decodeFrom (index + 1) bs).map (c :: ·) := by
  have hl : Lead.of (UInt8.ofNat c.toNat) = .one := by
    rw [Lead.of_byte (by omega), if_pos h]
  rw [decodeFrom.eq_def]
  simp only [hl]
  simp only [toNat_byte (show c.toNat < 0x100 by omega), Char.ofNat_toNat]

theorem decodeFrom_two (hlow : 0x80 ≤ c.toNat) (hhigh : c.toNat < 0x800) :
    decodeFrom index (UInt8.ofNat (0xC0 + c.toNat / 0x40) ::
        UInt8.ofNat (0x80 + c.toNat % 0x40) :: bs) =
      (decodeFrom (index + 2) bs).map (c :: ·) := by
  have hlt : 0xC0 + c.toNat / 0x40 < 0x100 := by omega
  have hl : Lead.of (UInt8.ofNat (0xC0 + c.toNat / 0x40)) = .two := by
    rw [Lead.of_byte hlt, if_neg (by omega), if_neg (by omega), if_pos (by omega)]
  have hm : c.toNat % 0x40 < 0x40 := by omega
  have hc : charOfTwo (UInt8.ofNat (0xC0 + c.toNat / 0x40)) (UInt8.ofNat (0x80 + c.toNat % 0x40)) =
      c := by
    rw [charOfTwo, payload_byte hm, toNat_byte hlt]
    refine Eq.trans (congrArg Char.ofNat ?_) (Char.ofNat_toNat c)
    omega
  rw [decodeFrom.eq_def]
  simp only [hl]
  simp only [isContinuation_byte hm, if_true, hc]

theorem decodeFrom_three (hlow : 0x800 ≤ c.toNat) (hhigh : c.toNat < 0x10000) :
    decodeFrom index (UInt8.ofNat (0xE0 + c.toNat / 0x1000) ::
        UInt8.ofNat (0x80 + c.toNat / 0x40 % 0x40) ::
        UInt8.ofNat (0x80 + c.toNat % 0x40) :: bs) =
      (decodeFrom (index + 3) bs).map (c :: ·) := by
  have hvalid := toNat_valid c
  have hlt : 0xE0 + c.toNat / 0x1000 < 0x100 := by omega
  have hl : Lead.of (UInt8.ofNat (0xE0 + c.toNat / 0x1000)) = .three := by
    rw [Lead.of_byte hlt, if_neg (by omega), if_neg (by omega), if_neg (by omega),
      if_pos (by omega)]
  have hm₁ : c.toNat / 0x40 % 0x40 < 0x40 := by omega
  have hm₂ : c.toNat % 0x40 < 0x40 := by omega
  have hsecond : isSecondOfThree (UInt8.ofNat (0xE0 + c.toNat / 0x1000))
      (UInt8.ofNat (0x80 + c.toNat / 0x40 % 0x40)) = true :=
    isSecondOfThree_byte hlt hm₁ (by omega) (by omega)
  have hc : charOfThree (UInt8.ofNat (0xE0 + c.toNat / 0x1000))
      (UInt8.ofNat (0x80 + c.toNat / 0x40 % 0x40)) (UInt8.ofNat (0x80 + c.toNat % 0x40)) = c := by
    rw [charOfThree, payload_byte hm₁, payload_byte hm₂, toNat_byte hlt]
    refine Eq.trans (congrArg Char.ofNat ?_) (Char.ofNat_toNat c)
    omega
  rw [decodeFrom.eq_def]
  simp only [hl]
  simp only [hsecond, isContinuation_byte hm₂, if_true, hc]

theorem decodeFrom_four (hlow : 0x10000 ≤ c.toNat) :
    decodeFrom index (UInt8.ofNat (0xF0 + c.toNat / 0x40000) ::
        UInt8.ofNat (0x80 + c.toNat / 0x1000 % 0x40) ::
        UInt8.ofNat (0x80 + c.toNat / 0x40 % 0x40) ::
        UInt8.ofNat (0x80 + c.toNat % 0x40) :: bs) =
      (decodeFrom (index + 4) bs).map (c :: ·) := by
  have hvalid := toNat_valid c
  have hlt : 0xF0 + c.toNat / 0x40000 < 0x100 := by omega
  have hl : Lead.of (UInt8.ofNat (0xF0 + c.toNat / 0x40000)) = .four := by
    rw [Lead.of_byte hlt, if_neg (by omega), if_neg (by omega), if_neg (by omega),
      if_neg (by omega), if_pos (by omega)]
  have hm₁ : c.toNat / 0x1000 % 0x40 < 0x40 := by omega
  have hm₂ : c.toNat / 0x40 % 0x40 < 0x40 := by omega
  have hm₃ : c.toNat % 0x40 < 0x40 := by omega
  have hsecond : isSecondOfFour (UInt8.ofNat (0xF0 + c.toNat / 0x40000))
      (UInt8.ofNat (0x80 + c.toNat / 0x1000 % 0x40)) = true :=
    isSecondOfFour_byte hlt hm₁ (by omega) (by omega)
  have hc : charOfFour (UInt8.ofNat (0xF0 + c.toNat / 0x40000))
      (UInt8.ofNat (0x80 + c.toNat / 0x1000 % 0x40)) (UInt8.ofNat (0x80 + c.toNat / 0x40 % 0x40))
      (UInt8.ofNat (0x80 + c.toNat % 0x40)) = c := by
    rw [charOfFour, payload_byte hm₁, payload_byte hm₂, payload_byte hm₃, toNat_byte hlt]
    refine Eq.trans (congrArg Char.ofNat ?_) (Char.ofNat_toNat c)
    omega
  rw [decodeFrom.eq_def]
  simp only [hl]
  simp only [hsecond, isContinuation_byte hm₂, isContinuation_byte hm₃, if_true, hc]

/-- A character is read back from the front of a text. -/
theorem decodeFrom_encodeChar : decodeFrom index (encodeChar c ++ bs) =
    (decodeFrom (index + (encodeChar c).length) bs).map (c :: ·) := by
  unfold encodeChar
  dsimp only
  split
  · next h => exact decodeFrom_one index bs c h
  · next h₁ =>
    split
    · next h₂ => exact decodeFrom_two index bs c (Nat.not_lt.1 h₁) h₂
    · next h₂ =>
      split
      · next h₃ => exact decodeFrom_three index bs c (Nat.not_lt.1 h₂) h₃
      · next h₃ => exact decodeFrom_four index bs c (Nat.not_lt.1 h₃)

theorem decodeFrom_encode (cs : List Char) : decodeFrom index (encode cs) = .ok cs := by
  induction cs generalizing index with
  | nil => rfl
  | cons c cs ih =>
    have hcons : encode (c :: cs) = encodeChar c ++ encode cs := List.flatMap_cons
    rw [hcons, decodeFrom_encodeChar, ih]
    rfl

/-- Every text is read back from its bytes. -/
theorem decode_encode (cs : List Char) : decode (encode cs) = .ok cs := decodeFrom_encode 0 cs

/-! ### Only the shortest forms are read -/

variable {b b₁ b₂ b₃ b₄ : UInt8}

/-- What a first byte that announces a length says about its number. -/
theorem Lead.of_eq (b : UInt8) :
    (Lead.of b = .one → b.toNat < 0x80) ∧ (Lead.of b = .two → 0xC2 ≤ b.toNat ∧ b.toNat < 0xE0) ∧
    (Lead.of b = .three → 0xE0 ≤ b.toNat ∧ b.toNat < 0xF0) ∧
    (Lead.of b = .four → 0xF0 ≤ b.toNat ∧ b.toNat < 0xF5) := by
  have hb := Lead.of_byte b.toNat_lt
  rw [UInt8.ofNat_toNat] at hb
  rw [hb]
  grind

theorem toNat_of_isContinuation (h : isContinuation b = true) :
    b.toNat = 0x80 + payload b ∧ payload b < 0x40 := by
  simp only [isContinuation, Bool.and_eq_true, decide_eq_true_eq, UInt8.le_iff_toNat_le,
    UInt8.lt_iff_toNat_lt, UInt8.reduceToNat] at h
  unfold payload
  omega

theorem continues_of_isSecondOfThree (h : isSecondOfThree b₁ b₂ = true) :
    isContinuation b₂ = true ∧ (b₁.toNat = 0xE0 → 0x20 ≤ payload b₂) ∧
      (b₁.toNat = 0xED → payload b₂ < 0x20) := by
  simp only [isSecondOfThree, Bool.and_eq_true, Bool.or_eq_true, bne_iff_ne, ne_eq,
    decide_eq_true_eq, UInt8.le_iff_toNat_le, UInt8.lt_iff_toNat_lt, ← UInt8.toNat_inj,
    UInt8.reduceToNat] at h
  obtain ⟨⟨hc, hlow⟩, hhigh⟩ := h
  have hb := toNat_of_isContinuation hc
  refine ⟨hc, ?_, ?_⟩ <;> omega

theorem continues_of_isSecondOfFour (h : isSecondOfFour b₁ b₂ = true) :
    isContinuation b₂ = true ∧ (b₁.toNat = 0xF0 → 0x10 ≤ payload b₂) ∧
      (b₁.toNat = 0xF4 → payload b₂ < 0x10) := by
  simp only [isSecondOfFour, Bool.and_eq_true, Bool.or_eq_true, bne_iff_ne, ne_eq,
    decide_eq_true_eq, UInt8.le_iff_toNat_le, UInt8.lt_iff_toNat_lt, ← UInt8.toNat_inj,
    UInt8.reduceToNat] at h
  obtain ⟨⟨hc, hlow⟩, hhigh⟩ := h
  have hb := toNat_of_isContinuation hc
  refine ⟨hc, ?_, ?_⟩ <;> omega

/-- A number that is no surrogate is that of its character. -/
theorem toNat_ofNat {n : Nat} (h : n < 0xD800 ∨ (0xDFFF < n ∧ n < 0x110000)) :
    (Char.ofNat n).toNat = n := by
  rw [Char.ofNat, dif_pos h]
  rfl

theorem eq_ofNat {n : Nat} (h : b.toNat = n) : UInt8.ofNat n = b := by
  rw [← h, UInt8.ofNat_toNat]

theorem encodeChar_ofOne (h : Lead.of b = .one) : encodeChar (Char.ofNat b.toNat) = [b] := by
  have hb := (Lead.of_eq b).1 h
  have hn : (Char.ofNat b.toNat).toNat = b.toNat := toNat_ofNat (by omega)
  rw [encodeChar, hn, if_pos hb, UInt8.ofNat_toNat]

theorem encodeChar_charOfTwo (h : Lead.of b₁ = .two) (h₂ : isContinuation b₂ = true) :
    encodeChar (charOfTwo b₁ b₂) = [b₁, b₂] := by
  have hb₁ := (Lead.of_eq b₁).2.1 h
  obtain ⟨hb₂, hp⟩ := toNat_of_isContinuation h₂
  rw [encodeChar, charOfTwo, toNat_ofNat (by omega), if_neg (by omega), if_pos (by omega),
    eq_ofNat (b := b₁) (by omega), eq_ofNat (b := b₂) (by omega)]

theorem encodeChar_charOfThree (h : Lead.of b₁ = .three) (h₂ : isSecondOfThree b₁ b₂ = true)
    (h₃ : isContinuation b₃ = true) : encodeChar (charOfThree b₁ b₂ b₃) = [b₁, b₂, b₃] := by
  have hb₁ := (Lead.of_eq b₁).2.2.1 h
  obtain ⟨hc₂, hlow, hhigh⟩ := continues_of_isSecondOfThree h₂
  obtain ⟨hb₂, hp₂⟩ := toNat_of_isContinuation hc₂
  obtain ⟨hb₃, hp₃⟩ := toNat_of_isContinuation h₃
  rw [encodeChar, charOfThree, toNat_ofNat (by omega), if_neg (by omega), if_neg (by omega),
    if_pos (by omega), eq_ofNat (b := b₁) (by omega), eq_ofNat (b := b₂) (by omega),
    eq_ofNat (b := b₃) (by omega)]

theorem encodeChar_charOfFour (h : Lead.of b₁ = .four) (h₂ : isSecondOfFour b₁ b₂ = true)
    (h₃ : isContinuation b₃ = true) (h₄ : isContinuation b₄ = true) :
    encodeChar (charOfFour b₁ b₂ b₃ b₄) = [b₁, b₂, b₃, b₄] := by
  have hb₁ := (Lead.of_eq b₁).2.2.2 h
  obtain ⟨hc₂, hlow, hhigh⟩ := continues_of_isSecondOfFour h₂
  obtain ⟨hb₂, hp₂⟩ := toNat_of_isContinuation hc₂
  obtain ⟨hb₃, hp₃⟩ := toNat_of_isContinuation h₃
  obtain ⟨hb₄, hp₄⟩ := toNat_of_isContinuation h₄
  rw [encodeChar, charOfFour, toNat_ofNat (by omega), if_neg (by omega), if_neg (by omega),
    if_neg (by omega), eq_ofNat (b := b₁) (by omega), eq_ofNat (b := b₂) (by omega),
    eq_ofNat (b := b₃) (by omega), eq_ofNat (b := b₄) (by omega)]

/-- One character more in front. -/
theorem encode_of_map {c : Char} {front rest : Bytes} {index : Nat} {cs : List Char}
    (hc : encodeChar c = front)
    (hrest : ∀ {cs : List Char}, decodeFrom index rest = .ok cs → encode cs = rest)
    (h : (decodeFrom index rest).map (c :: ·) = .ok cs) : encode cs = front ++ rest := by
  obtain ⟨cs', hcs, rfl⟩ := map_eq_ok.1 h
  have hcons : encode (c :: cs') = encodeChar c ++ encode cs' := List.flatMap_cons
  rw [hcons, hc, hrest hcs]

theorem encode_of_decodeFrom {index : Nat} {bs : Bytes} {cs : List Char}
    (h : decodeFrom index bs = .ok cs) : encode cs = bs := by
  fun_induction decodeFrom index bs generalizing cs with
  | case1 => cases h; rfl
  | case3 _ b₁ r₁ hl ih => exact encode_of_map (encodeChar_ofOne hl) ih h
  | case5 _ b₁ hl b₂ r₂ h₂ ih => exact encode_of_map (encodeChar_charOfTwo hl h₂) ih h
  | case9 _ b₁ hl b₂ h₂ b₃ r₃ h₃ ih => exact encode_of_map (encodeChar_charOfThree hl h₂ h₃) ih h
  | case15 _ b₁ hl b₂ h₂ b₃ h₃ b₄ r₄ h₄ ih =>
    exact encode_of_map (encodeChar_charOfFour hl h₂ h₃ h₄) ih h
  | _ => cases h

/-- Bytes that are read as a text are the bytes of that text. -/
theorem encode_of_decode {bs : Bytes} {cs : List Char} (h : decode bs = .ok cs) :
    encode cs = bs := encode_of_decodeFrom h

theorem length_encodeChar (c : Char) : (encodeChar c).length = c.utf8Size := by
  simp only [encodeChar, Char.utf8Size, UInt32.le_iff_toNat_le, Char.toNat]
  split_ifs <;> first | rfl | (simp at *; omega)

/-- The bytes of a text are as many as the string takes in memory. -/
theorem length_encode (s : String) : (encode s.toList).length = s.utf8ByteSize := by
  have hchars : ∀ cs : List Char, (encode cs).length = String.utf8Len cs := fun cs => by
    induction cs with
    | nil => rfl
    | cons c cs ih =>
      have hcons : encode (c :: cs) = encodeChar c ++ encode cs := List.flatMap_cons
      rw [hcons, List.length_append, length_encodeChar, ih, String.utf8Len_cons, Nat.add_comm]
  rw [hchars, ← String.utf8ByteSize_ofList, String.ofList_toList]

/-- A text with fewer characters has fewer bytes. -/
theorem length_encode_le {cs ds : List Char} (h : cs.Sublist ds) :
    (encode cs).length ≤ (encode ds).length := (h.flatMap _).length_le

end EscrowMix.Utf8
