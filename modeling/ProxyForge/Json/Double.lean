import ProxyForge.Json.Number

/-!
# Numbers as doubles

A number of a JSON text that is no 64-bit integer is read as a double: its digits are collected as long as they fit
64 bits, turned into the nearest double, and multiplied or divided by the double nearest to a power of ten. All of it
is exact arithmetic on natural numbers: `Double.round` takes a quotient to the nearest double, ties to even. Written,
a double has the fewest digits that read back as it, and of those the nearest to it; an exponent has its sign.
-/

namespace ProxyForge.Json

/-- A double that is not negative: `significand * 2 ^ exponent`. -/
structure Double where
  significand : Nat
  exponent : Int
  deriving DecidableEq, Repr

namespace Double

/-- The numerator and denominator of `n * 2 ^ e`. -/
def fraction (n : Nat) (e : Int) : Nat × Nat :=
  (n * Nat.pow 2 e.toNat, Nat.pow 2 (-e).toNat)

/-- The double nearest to a quotient, ties to even; `none` past the largest. -/
def round (num den : Nat) : Option Double :=
  if num = 0 then some ⟨0, -1074⟩
  else
    let low : Int := (Nat.log2 num : Int) - Nat.log2 den - 53
    let scaled (e : Int) : Nat × Nat := (num * Nat.pow 2 (-e).toNat, den * Nat.pow 2 e.toNat)
    let fits := (scaled low).1 / (scaled low).2 < Nat.pow 2 53
    let exponent := max (-1074) (if fits then low else low + 1)
    let (n, d) := scaled exponent
    let down := n / d
    let twice := 2 * (n % d)
    let nearest := if d < twice ∨ (twice = d ∧ down % 2 = 1) then down + 1 else down
    let normal : Double := if nearest = Nat.pow 2 53 then ⟨Nat.pow 2 52, exponent + 1⟩ else ⟨nearest, exponent⟩
    if 971 < normal.exponent then none else some normal

/-- The double nearest to a product of doubles. -/
def mul (a b : Double) : Option Double :=
  let (an, ad) := fraction a.significand a.exponent
  let (bn, bd) := fraction b.significand b.exponent
  round (an * bn) (ad * bd)

/-- The double nearest to a quotient of doubles. -/
def div (a b : Double) : Option Double :=
  let (an, ad) := fraction a.significand a.exponent
  let (bn, bd) := fraction b.significand b.exponent
  round (an * bd) (ad * bn)

/-- A double times a power of ten, by steps that a double can hold. -/
def scale (a : Double) (exponent : Int) : Option Double :=
  if a.significand = 0 then some a
  else if 308 < exponent then none
  else if 0 ≤ exponent then do a.mul (← round (Nat.pow 10 exponent.toNat) 1)
  else if -308 ≤ exponent then do a.div (← round (Nat.pow 10 (-exponent).toNat) 1)
  else do
    let largest ← round (Nat.pow 10 308) 1
    let a ← a.div largest
    if -308 ≤ exponent + 308 then a.div (← round (Nat.pow 10 (-(exponent + 308)).toNat) 1) else a.div largest

/-- The decimal exponent `k` of a positive quotient: `10 ^ k ≤ num / den < 10 ^ (k + 1)`. -/
def decimalExponent (num den : Nat) : Int :=
  if den ≤ num then ((Nat.toDigits 10 (num / den)).length : Int) - 1
  else
    let quotient := den / num
    let digits := (Nat.toDigits 10 quotient).length
    if den ≤ num * Nat.pow 10 (digits - 1) then -((digits : Int) - 1) else -(digits : Int)

/-- Whether a decimal `d * 10 ^ e` reads back as a double: it lies between the middles to its neighbours, at a middle
only if the significand is even. -/
def readsBack (a : Double) (d : Nat) (e : Int) : Bool :=
  let (dn, dd) := (d * Nat.pow 10 e.toNat, Nat.pow 10 (-e).toNat)
  let (hn, hd) := fraction (2 * a.significand + 1) (a.exponent - 1)
  let closer := a.significand = Nat.pow 2 52 && -1074 < a.exponent
  let (ln, ld) :=
    if closer then fraction (4 * a.significand - 1) (a.exponent - 2)
    else fraction (2 * a.significand - 1) (a.exponent - 1)
  let even := a.significand % 2 = 0
  let below := if even then dn * hd ≤ hn * dd else dn * hd < hn * dd
  let above := if even then ln * dd ≤ dn * ld else ln * dd < dn * ld
  below && above

/-- The decimal of a number of digits nearest to a double, if one of that many digits reads back. -/
def ofDigits? (a : Double) (digits : Nat) : Option (Nat × Int) :=
  let (num, den) := fraction a.significand a.exponent
  let e := decimalExponent num den + 1 - digits
  let (n, d) := (num * Nat.pow 10 (-e).toNat, den * Nat.pow 10 e.toNat)
  let down := n / d
  let near := if d < 2 * (n % d) || (2 * (n % d) = d && down % 2 = 1) then [down + 1, down] else [down, down + 1]
  (near.find? fun c => readsBack a c e).map fun c => (c, e)

/-- A decimal without zeros at its end. -/
def withoutZeros : Nat → Nat × Int → Nat × Int
  | 0, d => d
  | fuel + 1, (d, e) => if d % 10 = 0 && d ≠ 0 then withoutZeros fuel (d / 10, e + 1) else (d, e)

/-- The shortest decimal that reads back as a positive double. -/
def shortest (a : Double) : Nat × Int :=
  withoutZeros 20 (((List.range 17).findSome? fun i => ofDigits? a (i + 1)).getD (0, 0))

/-- An exponent behind its mark; the sign is written in any case. -/
def exponentText (e : Int) : List Char :=
  'e' :: (if 0 ≤ e then '+' else '-') :: Nat.toDigits 10 e.natAbs

/-- The text of a double: positional from `1e-5` up to `1e16`, otherwise with an exponent. -/
def text (a : Double) : List Char :=
  if a.significand = 0 then ['0', '.', '0']
  else
    let (d, e) := shortest a
    let digits := Nat.toDigits 10 d
    let point : Int := digits.length + e
    if 0 ≤ e && point ≤ 16 then digits ++ List.replicate e.toNat '0' ++ ['.', '0']
    else if 0 < point && point ≤ 16 then digits.take point.toNat ++ '.' :: digits.drop point.toNat
    else if -5 < point && point ≤ 0 then '0' :: '.' :: List.replicate (-point).toNat '0' ++ digits
    else
      match digits with
      | [] => []
      | [c] => c :: exponentText (point - 1)
      | c :: cs => c :: '.' :: cs ++ exponentText (point - 1)

end Double

/-- The digits of a number collected into 64 bits, and the power of ten they are to be scaled by. -/
structure Collected where
  significand : Nat
  exponent : Int
  deriving DecidableEq, Repr

namespace Collected

/-- A further digit, if the digits still fit 64 bits. -/
def push? (c : Collected) (digit : Char) : Option Nat :=
  let value := c.significand * 10 + (digit.toNat - 48)
  if value < Nat.pow 2 64 then some value else none

/-- Collects the digits of a whole part; from the first that does not fit on, each counts as a power of ten. -/
def whole (c : Collected) : List Char → Collected
  | [] => c
  | d :: ds =>
    match c.push? d with
    | some value => whole { c with significand := value } ds
    | none => { c with exponent := c.exponent + (d :: ds).length }

/-- Collects the digits of a fraction; those from the first that does not fit on are passed over. -/
def fraction (c : Collected) : List Char → Collected
  | [] => c
  | d :: ds =>
    match c.push? d with
    | some value => fraction { significand := value, exponent := c.exponent - 1 } ds
    | none => c

end Collected

namespace Number

/-- The number that a text of digits stands for. -/
def digitsValue (ds : List Char) : Nat :=
  ds.foldl (fun v d => v * 10 + (d.toNat - 48)) 0

/-- The magnitude of a number as a double; `none` when it is too large. -/
def magnitude? (p : NumberParts) : Option Double := do
  let c := (Collected.whole ⟨0, 0⟩ p.whole).fraction p.fraction
  let exponent : Int :=
    match p.exponent with
    | none => 0
    | some (negative, ds) => if negative then -(digitsValue ds : Int) else digitsValue ds
  (← Double.round c.significand 1).scale (c.exponent + exponent)

/-- The text of a number once it has been read: a 64-bit integer as it is, every other number as a double; `none`
when it is too large for a double. -/
def normalText? (n : Number) : Option (List Char) :=
  let p := n.parts
  let value := digitsValue p.whole
  let sign (cs : List Char) : List Char := if p.negative then '-' :: cs else cs
  let isWhole := p.fraction.isEmpty && p.exponent.isNone
  if isWhole && (if p.negative then 0 < value && value ≤ Nat.pow 2 63 else value < Nat.pow 2 64) then
    some (sign (Nat.toDigits 10 value))
  else (magnitude? p).map fun a => sign a.text

end Number

end ProxyForge.Json
