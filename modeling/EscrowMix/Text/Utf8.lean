import EscrowMix.Bytes

/-!
UTF-8, with the place and the kind of the first fault. A fault is either a sequence of one to
three bytes that no text contains, or the end of the input inside a sequence that was valid so
far. Only shortest forms are read, and no surrogates.
-/

namespace EscrowMix.Utf8

/-- Where reading stopped: the byte index of the faulty sequence, and the number of its bytes that
are at fault, or nothing when the input ends inside the sequence. -/
structure Fault where
  index : Nat
  width : Option Nat
deriving DecidableEq

/-- The wording of a fault. -/
def Fault.message (f : Fault) : String :=
  match f.width with
  | some n => "invalid utf-8 sequence of " ++ toString n ++ " bytes from index " ++ toString f.index
  | none => "incomplete utf-8 byte sequence from index " ++ toString f.index

/-- The bytes of one character, in the shortest form. -/
def encodeChar (c : Char) : Bytes :=
  let n := c.toNat
  if n < 0x80 then [UInt8.ofNat n]
  else if n < 0x800 then [UInt8.ofNat (0xC0 + n / 0x40), UInt8.ofNat (0x80 + n % 0x40)]
  else if n < 0x10000 then
    [UInt8.ofNat (0xE0 + n / 0x1000), UInt8.ofNat (0x80 + n / 0x40 % 0x40),
      UInt8.ofNat (0x80 + n % 0x40)]
  else
    [UInt8.ofNat (0xF0 + n / 0x40000), UInt8.ofNat (0x80 + n / 0x1000 % 0x40),
      UInt8.ofNat (0x80 + n / 0x40 % 0x40), UInt8.ofNat (0x80 + n % 0x40)]

/-- The bytes of a text. -/
def encode (cs : List Char) : Bytes := cs.flatMap encodeChar

/-- What the first byte of a sequence announces. -/
inductive Lead where
  | one | two | three | four | none
deriving DecidableEq

/-- The length that a first byte announces; `80` to `C1` and `F5` to `FF` begin nothing. -/
def Lead.of (b : UInt8) : Lead :=
  if b < 0x80 then .one
  else if b < 0xC2 then .none
  else if b < 0xE0 then .two
  else if b < 0xF0 then .three
  else if b < 0xF5 then .four
  else .none

/-- A byte that continues a sequence. -/
def isContinuation (b : UInt8) : Bool := 0x80 ≤ b && b < 0xC0

/-- The second bytes allowed after a first byte of three: no longer form, no surrogate. -/
def isSecondOfThree (b₁ b₂ : UInt8) : Bool :=
  isContinuation b₂ && (b₁ != 0xE0 || 0xA0 ≤ b₂) && (b₁ != 0xED || b₂ < 0xA0)

/-- The second bytes allowed after a first byte of four: no longer form, nothing past `10FFFF`. -/
def isSecondOfFour (b₁ b₂ : UInt8) : Bool :=
  isContinuation b₂ && (b₁ != 0xF0 || 0x90 ≤ b₂) && (b₁ != 0xF4 || b₂ < 0x90)

/-- The payload of a continuation byte. -/
def payload (b : UInt8) : Nat := b.toNat - 0x80

/-- The character of two bytes. -/
def charOfTwo (b₁ b₂ : UInt8) : Char := Char.ofNat ((b₁.toNat - 0xC0) * 0x40 + payload b₂)

/-- The character of three bytes. -/
def charOfThree (b₁ b₂ b₃ : UInt8) : Char :=
  Char.ofNat ((b₁.toNat - 0xE0) * 0x1000 + payload b₂ * 0x40 + payload b₃)

/-- The character of four bytes. -/
def charOfFour (b₁ b₂ b₃ b₄ : UInt8) : Char :=
  Char.ofNat ((b₁.toNat - 0xF0) * 0x40000 + payload b₂ * 0x1000 + payload b₃ * 0x40 + payload b₄)

/-- Reads a text whose first byte has the given index, up to the first fault. -/
def decodeFrom (index : Nat) : Bytes → Except Fault (List Char)
  | [] => .ok []
  | b₁ :: r₁ =>
    match Lead.of b₁ with
    | .none => .error ⟨index, some 1⟩
    | .one => (decodeFrom (index + 1) r₁).map (Char.ofNat b₁.toNat :: ·)
    | .two =>
      match r₁ with
      | [] => .error ⟨index, none⟩
      | b₂ :: r₂ =>
        if isContinuation b₂ then (decodeFrom (index + 2) r₂).map (charOfTwo b₁ b₂ :: ·)
        else .error ⟨index, some 1⟩
    | .three =>
      match r₁ with
      | [] => .error ⟨index, none⟩
      | b₂ :: r₂ =>
        if isSecondOfThree b₁ b₂ then
          match r₂ with
          | [] => .error ⟨index, none⟩
          | b₃ :: r₃ =>
            if isContinuation b₃ then (decodeFrom (index + 3) r₃).map (charOfThree b₁ b₂ b₃ :: ·)
            else .error ⟨index, some 2⟩
        else .error ⟨index, some 1⟩
    | .four =>
      match r₁ with
      | [] => .error ⟨index, none⟩
      | b₂ :: r₂ =>
        if isSecondOfFour b₁ b₂ then
          match r₂ with
          | [] => .error ⟨index, none⟩
          | b₃ :: r₃ =>
            if isContinuation b₃ then
              match r₃ with
              | [] => .error ⟨index, none⟩
              | b₄ :: r₄ =>
                if isContinuation b₄ then
                  (decodeFrom (index + 4) r₄).map (charOfFour b₁ b₂ b₃ b₄ :: ·)
                else .error ⟨index, some 3⟩
            else .error ⟨index, some 2⟩
        else .error ⟨index, some 1⟩

/-- Reads a whole text. -/
def decode (bs : Bytes) : Except Fault (List Char) := decodeFrom 0 bs

end EscrowMix.Utf8
