import ProxyForge.Word

/-!
# Keccak-256

The sponge over the permutation of twenty-five 64-bit lanes: lane `(x, y)` stands at place `x + 5 y`, a
message is padded to blocks of 136 bytes, each block is added to the first seventeen lanes and the lanes are
permuted, and the digest is the first four lanes. The five step maps of a round have their usual names
θ, ρ, π, χ and ι.
-/

namespace ProxyForge.Keccak

/-- The lanes, row by row. -/
abbrev Lanes := Vector UInt64 25

/-- The lane in a column and a row, both counted modulo five. -/
def lane (a : Lanes) (x y : Nat) : UInt64 :=
  a.get ⟨x % 5 + 5 * (y % 5), by omega⟩

/-- The lanes whose value is given by column and row. -/
def build (f : Nat → Nat → UInt64) : Lanes :=
  Vector.ofFn fun i => f (i.val % 5) (i.val / 5)

/-- A lane turned left by a number of bits below 64. -/
def rotateLeft (w : UInt64) (k : Nat) : UInt64 :=
  if k = 0 then w else (w <<< UInt64.ofNat k) ||| (w >>> UInt64.ofNat (64 - k))

/-- How far ρ turns each lane, row by row. -/
def offsets : Vector Nat 25 :=
  #v[ 0,  1, 62, 28, 27,
     36, 44,  6, 55, 20,
      3, 10, 43, 25, 39,
     41, 45, 15, 21,  8,
     18,  2, 61, 56, 14]

/-- What ι adds to the first lane, round by round. -/
def roundConstants : List UInt64 :=
  [0x0000000000000001, 0x0000000000008082, 0x800000000000808A, 0x8000000080008000,
   0x000000000000808B, 0x0000000080000001, 0x8000000080008081, 0x8000000000008009,
   0x000000000000008A, 0x0000000000000088, 0x0000000080008009, 0x000000008000000A,
   0x000000008000808B, 0x800000000000008B, 0x8000000000008089, 0x8000000000008003,
   0x8000000000008002, 0x8000000000000080, 0x000000000000800A, 0x800000008000000A,
   0x8000000080008081, 0x8000000000008080, 0x0000000080000001, 0x8000000080008008]

/-- Adds to each lane the parities of the column to its left and of the turned column to its right. -/
def theta (a : Lanes) : Lanes :=
  let parity : Vector UInt64 5 := Vector.ofFn fun x =>
    lane a x 0 ^^^ lane a x 1 ^^^ lane a x 2 ^^^ lane a x 3 ^^^ lane a x 4
  build fun x y =>
    lane a x y ^^^ parity.get ⟨(x + 4) % 5, by omega⟩ ^^^ rotateLeft (parity.get ⟨(x + 1) % 5, by omega⟩) 1

/-- Turns each lane by its offset. -/
def rho (a : Lanes) : Lanes :=
  Vector.ofFn fun i => rotateLeft a[i] offsets[i]

/-- Moves lane `(x, y)` to `(y, 2 x + 3 y)`. -/
def pi (a : Lanes) : Lanes :=
  build fun x y => lane a (x + 3 * y) x

/-- Adds to each lane the product of the negated next lane and the one behind it. -/
def chi (a : Lanes) : Lanes :=
  build fun x y => lane a x y ^^^ (~~~ lane a (x + 1) y &&& lane a (x + 2) y)

/-- Adds a round constant to the first lane. -/
def iota (constant : UInt64) (a : Lanes) : Lanes :=
  a.set 0 (a[0] ^^^ constant)

/-- The permutation: twenty-four rounds. -/
def permute (a : Lanes) : Lanes :=
  roundConstants.foldl (fun a constant => iota constant (chi (pi (rho (theta a))))) a

/-- The number of bytes of a block. -/
def rate : Nat := 136

/-- A message filled up to whole blocks: a one bit, zeros, and a one bit at the very end. -/
def pad (message : List UInt8) : List UInt8 :=
  let missing := rate - message.length % rate
  if missing = 1 then message ++ [0x81]
  else message ++ 0x01 :: List.replicate (missing - 2) 0 ++ [0x80]

/-- The lane of eight bytes, lowest first. -/
def laneOfBytes (bytes : List UInt8) : UInt64 :=
  bytes.foldr (fun b w => w <<< 8 ||| b.toUInt64) 0

/-- The eight bytes of a lane, lowest first. -/
def bytesOfLane (w : UInt64) : List UInt8 :=
  (List.range 8).map fun i => (w >>> UInt64.ofNat (8 * i)).toUInt8

/-- Adds a block to the first lanes and permutes. -/
def absorb (a : Lanes) (block : List UInt8) : Lanes :=
  permute <| Vector.ofFn fun i =>
    if i.val < 17 then a[i] ^^^ laneOfBytes ((block.drop (8 * i.val)).take 8) else a[i]

/-- The blocks of a padded message. -/
def blocks (padded : List UInt8) : List (List UInt8) :=
  (List.range (padded.length / rate)).map fun i => (padded.drop (rate * i)).take rate

/-- The 32 bytes of the digest of a message. -/
def digest (message : List UInt8) : List UInt8 :=
  let a := (blocks (pad message)).foldl absorb (Vector.replicate 25 0)
  (List.range 4).flatMap fun i => bytesOfLane (lane a i 0)

theorem length_bytesOfLane (w : UInt64) : (bytesOfLane w).length = 8 := by
  simp [bytesOfLane]

theorem length_digest (message : List UInt8) : (digest message).length = 32 := by
  simp [digest, List.range_succ, length_bytesOfLane]

/-- The digest as a word. -/
def hash (message : List UInt8) : Word :=
  Word.ofBytes (digest message)

end ProxyForge.Keccak
