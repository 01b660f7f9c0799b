import ProxyForge.Keccak

/-!
# Checksummed addresses

The letters of an address carry a checksum in their case: digit `i` is upper case when the `i`-th half byte of
the digest of the forty lower-case digits is at least eight.
-/

namespace ProxyForge

/-- The half bytes of a byte string, high half first. -/
def nibbles (bytes : List UInt8) : List Nat :=
  bytes.flatMap fun b => [b.toNat / 16, b.toNat % 16]

namespace Address

/-- A digit in the case that its half byte of the digest asks for. -/
def marked (c : Char) (nibble : Nat) : Char :=
  if c.isAlpha && 8 ≤ nibble then c.toUpper else c

/-- The digits of an address with the checksum in their case. -/
def checksumDigits (a : Address) : List Char :=
  let digits := Hex.encode a.bytes
  List.zipWith marked digits (nibbles (Keccak.digest (digits.map fun c => c.toNat.toUInt8)))

/-- The checksummed literal of an address. -/
def checksummed (a : Address) : String :=
  "0x" ++ String.ofList a.checksumDigits

example : checksummed 0x5aaeb6053f3e94c9b9a09f33669435e7ef1beaed = "0x5aAeb6053F3E94C9b9A09f33669435E7Ef1BeAed" := by
  decide +kernel

end Address

end ProxyForge
