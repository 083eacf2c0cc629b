import EscrowMix.Bytes

/-!
The hash function Keccak-256: the sponge over the permutation of twenty-five words of 64 bits, with
a rate of 136 bytes, an output of 32 bytes and the first padding byte `01`. The word of column `x`
and row `y` stands at place `x + 5 * y` of the state.

The program takes this function from the package `tiny-keccak`, which is not part of it. Here it is
defined so that fingerprints can be computed. No theorem looks inside: where two digests are equal
for different inputs, the theorems show these inputs as a collision.
-/

namespace EscrowMix.Keccak

/-- The twenty-five words of a sponge. -/
abbrev State := List UInt64

/-- The word at a place. -/
def word (s : State) (i : Nat) : UInt64 := s.getD i 0

/-- Rotation toward the high end. -/
def rotate (w : UInt64) (n : Nat) : UInt64 :=
  if n = 0 then w else (w <<< UInt64.ofNat n) ||| (w >>> UInt64.ofNat (64 - n))

/-- The rotation of each place. -/
def offsets : List Nat :=
  [0, 1, 62, 28, 27, 36, 44, 6, 55, 20, 3, 10, 43, 25, 39, 41, 45, 15, 21, 8, 18, 2, 61, 56, 14]

/-- The constants of the rounds. -/
def roundConstants : List UInt64 :=
  [0x0000000000000001, 0x0000000000008082, 0x800000000000808A, 0x8000000080008000,
    0x000000000000808B, 0x0000000080000001, 0x8000000080008081, 0x8000000000008009,
    0x000000000000008A, 0x0000000000000088, 0x0000000080008009, 0x000000008000000A,
    0x000000008000808B, 0x800000000000008B, 0x8000000000008089, 0x8000000000008003,
    0x8000000000008002, 0x8000000000000080, 0x000000000000800A, 0x800000008000000A,
    0x8000000080008081, 0x8000000000008080, 0x0000000080000001, 0x8000000080008008]

/-- Every word takes in the parities of the column before and of the column after, rotated. -/
def theta (s : State) : State :=
  let parity := (List.range 5).map fun x =>
    word s x ^^^ word s (x + 5) ^^^ word s (x + 10) ^^^ word s (x + 15) ^^^ word s (x + 20)
  let change := (List.range 5).map fun x =>
    word parity ((x + 4) % 5) ^^^ rotate (word parity ((x + 1) % 5)) 1
  (List.range 25).map fun i => word s i ^^^ word change (i % 5)

/-- Every word is rotated by its offset and moved: place `(x, y)` is filled from `(x + 3 y, x)`. -/
def rhoPi (s : State) : State :=
  (List.range 25).map fun i =>
    let source := (i % 5 + 3 * (i / 5)) % 5 + 5 * (i % 5)
    rotate (word s source) (offsets.getD source 0)

/-- Every word takes in the word two columns on where the word one column on has no bit. -/
def chi (s : State) : State :=
  (List.range 25).map fun i =>
    let row := i / 5 * 5
    word s i ^^^ (~~~ word s (row + (i + 1) % 5) &&& word s (row + (i + 2) % 5))

/-- The first word takes in the constant of the round. -/
def iota (constant : UInt64) : State → State
  | [] => []
  | w :: ws => (w ^^^ constant) :: ws

/-- One round. -/
def round (s : State) (constant : UInt64) : State := iota constant (chi (rhoPi (theta s)))

/-- The permutation: twenty-four rounds. -/
def permute (s : State) : State := roundConstants.foldl round s

/-- The number of bytes taken in at a time. -/
def rate : Nat := 136

/-- Eight bytes as a word, the lowest first. -/
def wordOfBytes (bs : Bytes) : UInt64 := bs.foldr (fun b w => (w <<< 8) ||| b.toUInt64) 0

/-- The eight bytes of a word, the lowest first. -/
def bytesOfWord (w : UInt64) : Bytes :=
  (List.range 8).map fun i => (w >>> UInt64.ofNat (8 * i)).toUInt8

/-- Takes one block into the state and permutes. -/
def absorb (s : State) (block : Bytes) : State :=
  permute <| (List.range 25).map fun i =>
    word s i ^^^ wordOfBytes ((block.drop (8 * i)).take 8)

/-- The last block: the rest of the message, a byte `01`, zeros, and the top bit of the block's
last byte. -/
def padded (rest : Bytes) : Bytes :=
  if rest.length + 1 = rate then rest ++ [0x81]
  else rest ++ 0x01 :: List.replicate (rate - 2 - rest.length) 0x00 ++ [0x80]

/-- Takes in `n` full blocks and then the last one. -/
def absorbAll : Nat → State → Bytes → State
  | 0, s, bs => absorb s (padded bs)
  | n + 1, s, bs => absorbAll n (absorb s (bs.take rate)) (bs.drop rate)

/-- The digest of a message, 32 bytes. -/
def digest (message : Bytes) : Bytes :=
  let final := absorbAll (message.length / rate) (List.replicate 25 0) message
  (final.take 4).flatMap bytesOfWord

end EscrowMix.Keccak
