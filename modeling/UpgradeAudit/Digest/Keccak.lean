/-!
# The Keccak-256 digest

The sponge with a rate of 136 bytes, the padding of the first Keccak submission (a one bit, zeros, a
one bit) and a digest of 32 bytes. The state is 25 words; the word of column `x` and row `y` has
index `5 * y + x`.
-/

namespace UpgradeAudit.Digest

/-- The 25 words of the permutation. -/
abbrev State := Vector UInt64 25

/-- The word with an index taken modulo 25. -/
def State.word (s : State) (i : Nat) : UInt64 :=
  s.get ⟨i % 25, Nat.mod_lt _ (by decide)⟩

def rotateLeft (w : UInt64) (count : Nat) : UInt64 :=
  let count := count.toUInt64
  (w <<< count) ||| (w >>> (64 - count))

/-- How far each word is turned, by index. -/
def rotations : List Nat :=
  [0, 1, 62, 28, 27, 36, 44, 6, 55, 20, 3, 10, 43, 25, 39, 41, 45, 15, 21, 8, 18, 2, 61, 56, 14]

/-- The constant of each round. -/
def roundConstants : List UInt64 :=
  [0x0000000000000001, 0x0000000000008082, 0x800000000000808a, 0x8000000080008000,
   0x000000000000808b, 0x0000000080000001, 0x8000000080008081, 0x8000000000008009,
   0x000000000000008a, 0x0000000000000088, 0x0000000080008009, 0x000000008000000a,
   0x000000008000808b, 0x800000000000008b, 0x8000000000008089, 0x8000000000008003,
   0x8000000000008002, 0x8000000000000080, 0x000000000000800a, 0x800000008000000a,
   0x8000000080008081, 0x8000000000008080, 0x0000000080000001, 0x8000000080008008]

def State.column (s : State) (x : Nat) : UInt64 :=
  s.word x ^^^ s.word (x + 5) ^^^ s.word (x + 10) ^^^ s.word (x + 15) ^^^ s.word (x + 20)

/-- Adds to each word the sums of two neighbouring columns. -/
def State.theta (s : State) : State :=
  let sums := Vector.ofFn fun x : Fin 5 => s.column x
  let sum (x : Nat) : UInt64 := sums.get ⟨x % 5, Nat.mod_lt _ (by decide)⟩
  Vector.ofFn fun i => s.word i ^^^ sum (i + 4) ^^^ rotateLeft (sum (i + 1)) 1

/-- Turns each word and moves it to its new place. -/
def State.rhoPi (s : State) : State :=
  Vector.ofFn fun i =>
    let x := i.val % 5
    let y := i.val / 5
    let source := (x + 3 * y) % 5 + 5 * x
    rotateLeft (s.word source) (rotations.getD source 0)

/-- Combines each word with the next two of its row. -/
def State.chi (s : State) : State :=
  Vector.ofFn fun i =>
    let row := 5 * (i.val / 5)
    s.word i ^^^ (~~~ s.word (row + (i + 1) % 5) &&& s.word (row + (i + 2) % 5))

def State.round (s : State) (constant : UInt64) : State :=
  let s := s.theta.rhoPi.chi
  s.set 0 (s.word 0 ^^^ constant)

/-- The permutation of 24 rounds. -/
def State.permute (s : State) : State :=
  roundConstants.foldl State.round s

/-- The number of bytes absorbed at a time. -/
def rate : Nat := 136

/-- Extends a message to a positive multiple of the rate. -/
def pad (message : List UInt8) : List UInt8 :=
  let missing := rate - message.length % rate
  if missing = 1 then message ++ [0x81]
  else message ++ 0x01 :: List.replicate (missing - 2) 0x00 ++ [0x80]

/-- The word of eight bytes, the lowest first. -/
def wordOfBytes (bytes : List UInt8) : UInt64 :=
  bytes.foldr (fun byte word => (word <<< 8) ||| byte.toUInt64) 0

/-- The eight bytes of a word, the lowest first. -/
def bytesOfWord (word : UInt64) : List UInt8 :=
  (List.range 8).map fun i => (word >>> (8 * i).toUInt64).toUInt8

/-- Adds a block to the words of the rate and permutes. -/
def State.absorb (s : State) (block : List UInt8) : State :=
  State.permute <| Vector.ofFn fun i =>
    s.word i ^^^ wordOfBytes ((block.drop (8 * i)).take 8)

def State.absorbBlocks (s : State) : Nat → List UInt8 → State
  | 0, _ => s
  | count + 1, message => (s.absorb (message.take rate)).absorbBlocks count (message.drop rate)

/-- The 32 bytes of the Keccak-256 digest. -/
def keccak256 (message : List UInt8) : List UInt8 :=
  let padded := pad message
  let final := State.absorbBlocks (Vector.replicate 25 0) (padded.length / rate) padded
  (List.range 4).flatMap fun i => bytesOfWord (final.word i)

end UpgradeAudit.Digest
