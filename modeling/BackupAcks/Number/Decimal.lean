import BackupAcks.Number.Binary64

/-!
# Numbers as text

Whole numbers and binary numbers are read as a command line spells them: ASCII digits only, no
blanks, no separators, and the whole text has to be the number.

A binary number is written with the fewest significant digits that read back to it; of two such
decimals the nearer one is taken, and of two equally near the larger. The text is positional,
never with an exponent. The search looks at the two neighbours of the value on the decimal grid of
one digit, then of two, and so on to seventeen, which always suffice.
-/
namespace BackupAcks

/-! ## Reading -/

namespace Reading

def digitsValue (cs : List Char) : Nat :=
  cs.foldl (fun n c => 10 * n + (c.toNat - '0'.toNat)) 0

/-- A non-empty run of decimal digits. -/
def digits? (cs : List Char) : Option Nat :=
  if cs.isEmpty || !cs.all Char.isDigit then none else some (digitsValue cs)

/-- A whole number with an optional plus sign. -/
def natural? (text : String) : Option Nat :=
  match text.toList with
  | '+' :: cs => digits? cs
  | cs => digits? cs

/-- A whole number with an optional sign of either kind. -/
def integer? (text : String) : Option Int :=
  match text.toList with
  | '-' :: cs => (digits? cs).map fun n => -(n : Int)
  | '+' :: cs => (digits? cs).map Int.ofNat
  | cs => (digits? cs).map Int.ofNat

/-- The exponent part of a decimal, if any: `e` or `E`, an optional sign, digits. -/
def exponent? : List Char → Option Int
  | [] => some 0
  | c :: cs => if c == 'e' || c == 'E' then integer? (String.ofList cs) else none

/-- An unsigned decimal: digits around an optional point, at least one of them, and an optional
exponent. -/
def decimal? (negative : Bool) (cs : List Char) : Option Binary64 :=
  let whole := cs.takeWhile Char.isDigit
  let rest := cs.dropWhile Char.isDigit
  let fraction := match rest with
    | '.' :: r => r.takeWhile Char.isDigit
    | _ => []
  let rest := match rest with
    | '.' :: r => r.dropWhile Char.isDigit
    | r => r
  if whole.isEmpty && fraction.isEmpty then none
  else
    (exponent? rest).map fun e =>
      Binary64.ofDecimal negative (digitsValue (whole ++ fraction)) (e - fraction.length)

/-- An unsigned binary number: a decimal, or one of the words for infinity and not-a-number in
any case. -/
def magnitude? (negative : Bool) (cs : List Char) : Option Binary64 :=
  let word := String.ofList (cs.map Char.toLower)
  if word == "inf" || word == "infinity" then some (.infinite negative)
  else if word == "nan" then some .nan
  else decimal? negative cs

def binary64? (text : String) : Option Binary64 :=
  match text.toList with
  | '-' :: cs => magnitude? true cs
  | '+' :: cs => magnitude? false cs
  | cs => magnitude? false cs

end Reading

/-! ## Writing -/

namespace Binary64

/-! ### Digits -/

/-- Decimal places that bring every positive finite number above one. -/
def scalePlaces : Nat := 400

/-- The decimal exponent `p` with `10 ^ (p - 1) ≤ v < 10 ^ p` for the positive number `v` of
`units` units. -/
def decimalExponent (units : Nat) : Int :=
  (decimalLength (units * Nat.pow 10 scalePlaces / oneUnits) : Int) - scalePlaces

/-- Whether `digits · 10 ^ exponent` reads back to the positive number of `units` units. -/
def readsBack (units digits : Nat) (exponent : Int) : Bool :=
  ofDecimal false digits exponent == .finite false units

/-- The decimal with `count` digits that reads back to the number, if one of the number's two
neighbours on that grid does: the nearer one, the upper one at a tie. -/
def candidate (units count : Nat) : Option (Nat × Int) :=
  let exponent := decimalExponent units - count
  let n := units * Nat.pow 10 (-exponent).toNat
  let d := oneUnits * Nat.pow 10 exponent.toNat
  let lower := n / d
  let upper := lower + 1
  let near := if 2 * (n % d) < d then lower else upper
  let far := if 2 * (n % d) < d then upper else lower
  if readsBack units near exponent then some (near, exponent)
  else if readsBack units far exponent then some (far, exponent)
  else none

/-- The shortest decimal `(digits, exponent)` that reads back to the positive number. -/
def shortest (units : Nat) : Nat × Int :=
  ((List.range 17).findSome? fun i => candidate units (i + 1)).getD (0, 0)

/-! ### Text -/

/-- `digits · 10 ^ exponent` in positional notation, without needless zeros. -/
def positional (digits : Nat) (exponent : Int) : String :=
  let ds := (Nat.toDigits 10 digits).reverse.dropWhile (· == '0') |>.reverse
  let exponent := exponent + (decimalLength digits - ds.length : Nat)
  if 0 ≤ exponent then
    String.ofList (ds ++ List.replicate exponent.toNat '0')
  else
    let after := (-exponent).toNat
    if ds.length ≤ after then
      "0." ++ String.ofList (List.replicate (after - ds.length) '0' ++ ds)
    else
      String.ofList (ds.take (ds.length - after)) ++ "." ++
        String.ofList (ds.drop (ds.length - after))

/-- The text of a magnitude: `0`, or the shortest decimal. -/
def magnitudeText (units : Nat) : String :=
  if units = 0 then "0"
  else
    let (digits, exponent) := shortest units
    positional digits exponent

/-- The number's text. A negative zero keeps its sign; a whole number has no point. -/
def text : Binary64 → String
  | .finite negative units => (if negative then "-" else "") ++ magnitudeText units
  | .infinite negative => if negative then "-inf" else "inf"
  | .nan => "NaN"

/-- The number's text with a point in every finite number: `2.0` for two. -/
def pointedText (x : Binary64) : String :=
  match x with
  | .finite _ _ => if x.text.toList.contains '.' then x.text else x.text ++ ".0"
  | _ => x.text

end Binary64

end BackupAcks
