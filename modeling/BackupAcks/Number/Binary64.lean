/-!
# Binary floating-point numbers of 64 bits, in exact arithmetic

A finite number is a sign and a whole number of *units* of `2 ^ -1074`, the spacing of the
smallest numbers of the format; every finite number of the format is such a multiple. Comparison
and addition are then integer arithmetic, and the one place where digits are lost is
`roundQuotient`, which keeps the 53 leading binary digits and sends a tie to the even neighbour.
-/
namespace BackupAcks

/-- A number of the 64-bit binary format: `± units · 2 ^ -1074`, an infinity, or not a number. -/
inductive Binary64 where
  | finite (negative : Bool) (units : Nat)
  | infinite (negative : Bool)
  | nan
  deriving DecidableEq, Repr

namespace Binary64

/-- Binary places behind the point of a unit. -/
def places : Nat := 1074

def oneUnits : Nat := Nat.pow 2 places

/-- The least magnitude, in units, that the format no longer holds. -/
def limit : Nat := Nat.pow 2 (1024 + places)

def zero : Binary64 := .finite false 0

def one : Binary64 := .finite false oneUnits

/-! ## Rounding -/

/-- `n / d` to the nearest whole number; a half goes to the even neighbour. -/
def divNearestEven (n d : Nat) : Nat :=
  let q := n / d
  let r := n % d
  if 2 * r < d then q else if d < 2 * r then q + 1 else q + q % 2

/-- The low binary places of `q` that lie beyond its 53 leading ones. -/
def spareBits (q : Nat) : Nat := q.log2 - 52

/-- `n / d` units, rounded to 53 significant binary digits. -/
def roundQuotient (n d : Nat) : Nat :=
  let k := spareBits (n / d)
  divNearestEven n (d * Nat.pow 2 k) * Nat.pow 2 k

/-- The number of the given sign and magnitude, infinite from `limit` on. -/
def ofMagnitude (negative : Bool) (units : Nat) : Binary64 :=
  if units < limit then .finite negative units else .infinite negative

def decimalLength (n : Nat) : Nat := (Nat.toDigits 10 n).length

/-- The number nearest to `± digits · 10 ^ exponent`. Magnitudes far outside the format are
settled by their decimal length alone. -/
def ofDecimal (negative : Bool) (digits : Nat) (exponent : Int) : Binary64 :=
  let length := (decimalLength digits : Int) + exponent
  if digits = 0 ∨ length < -400 then .finite negative 0
  else if 400 < length then .infinite negative
  else
    ofMagnitude negative
      (roundQuotient (digits * Nat.pow 10 exponent.toNat * oneUnits) (Nat.pow 10 (-exponent).toNat))

/-! ## Bit patterns -/

/-- The number with the given interchange bits: one sign bit, eleven of exponent, 52 of fraction. -/
def ofBits (bits : UInt64) : Binary64 :=
  let n := bits.toNat
  let negative := n / Nat.pow 2 63 == 1
  let exponent := n / Nat.pow 2 52 % Nat.pow 2 11
  let fraction := n % Nat.pow 2 52
  if exponent = 2047 then if fraction = 0 then .infinite negative else .nan
  else if exponent = 0 then .finite negative fraction
  else .finite negative ((Nat.pow 2 52 + fraction) * Nat.pow 2 (exponent - 1))

/-- The number with the given bits of the 32-bit format (eight bits of exponent, 23 of fraction),
all of whose values the 64-bit format holds exactly. -/
def ofBits32 (bits : UInt32) : Binary64 :=
  let n := bits.toNat
  let negative := n / Nat.pow 2 31 == 1
  let exponent := n / Nat.pow 2 23 % Nat.pow 2 8
  let fraction := n % Nat.pow 2 23
  if exponent = 255 then if fraction = 0 then .infinite negative else .nan
  else if exponent = 0 then .finite negative (fraction * Nat.pow 2 (places - 149))
  else .finite negative ((Nat.pow 2 23 + fraction) * Nat.pow 2 (exponent + places - 150))

/-! ## Order and sum -/

/-- Position on the number line in units, infinities at the limits; none for not-a-number. -/
def rank : Binary64 → Option Int
  | .finite negative units => some (if negative then -units else units)
  | .infinite negative => some (if negative then -limit else limit)
  | .nan => none

/-- Strictly below; false as soon as one side is not a number. -/
def lt (x y : Binary64) : Bool :=
  match x.rank, y.rank with
  | some a, some b => decide (a < b)
  | _, _ => false

/-- Below or equal; false as soon as one side is not a number. -/
def le (x y : Binary64) : Bool :=
  match x.rank, y.rank with
  | some a, some b => decide (a ≤ b)
  | _, _ => false

/-- The rounded sum. An exact zero is positive unless both terms are negative zeros. -/
def add : Binary64 → Binary64 → Binary64
  | .nan, _ | _, .nan => .nan
  | .infinite a, .infinite b => if a = b then .infinite a else .nan
  | .infinite a, .finite _ _ | .finite _ _, .infinite a => .infinite a
  | .finite a m, .finite b n =>
    let signed (negative : Bool) (units : Nat) : Int := if negative then -units else units
    let sum := signed a m + signed b n
    if sum = 0 then .finite (a && b) 0
    else ofMagnitude (decide (sum < 0)) (roundQuotient sum.natAbs 1)

/-- Whether the number lies between zero and one, both included. -/
def isProbability (x : Binary64) : Bool := zero.le x && x.le one

end Binary64
end BackupAcks
