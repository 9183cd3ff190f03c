import Clearance.Number.Double

/-!
# Clearance — Number — Shortest decimals

The fewest decimal digits that read back as a given double.  The reals that round to `m · 2^q` form
an interval, whose ends belong to it when `m` is even.  For one, two, … seventeen digits the two
neighbours of the value on that decimal grid are tested against the interval in exact arithmetic;
the first grid with a hit wins, and of two hits the nearer.

`DecimalStyle` holds what a format decides on top of that: where positional notation ends, whether a
whole number keeps a `.0`, and how an exponent is signed.
-/

namespace Clearance

/-- The decimal `digits · 10^power`. -/
structure Decimal where
  digits : Nat
  power : Int
  deriving DecidableEq, Repr

namespace Decimal

/-- Drops zeros at the end of the digits, at most `fuel` of them. -/
def stripZeros : Nat → Decimal → Decimal
  | 0, d => d
  | fuel + 1, d =>
    if d.digits ≠ 0 ∧ d.digits % 10 = 0 then stripZeros fuel ⟨d.digits / 10, d.power + 1⟩ else d

end Decimal

namespace Double

/-- How many decimal digits a natural has. -/
def digitCount (n : Nat) : Nat := (Nat.toDigits 10 n).length

/-- The power `p` with `10^p ≤ num / den < 10^(p+1)`. -/
def leadingPower (num den : Nat) : Int :=
  if den ≤ num then (digitCount (num / den) : Int) - 1
  else
    let x := (den + num - 1) / num
    let places : Nat := if x ≤ 1 then 0 else digitCount (x - 1)
    Int.negOfNat places

/-- `num / den` scaled by `10^(-power)`, still as a quotient. -/
def scaled (num den : Nat) (power : Int) : Nat × Nat :=
  if 0 ≤ power then (num, den * Nat.pow 10 power.toNat)
  else (num * Nat.pow 10 (-power).toNat, den)

/-- The interval of reals that round to `d`, as numerators over the denominator `4 · den`. -/
structure Rounding where
  low : Nat
  value : Nat
  high : Nat
  den : Nat
  ends : Bool

def rounding (d : Double) : Rounding :=
  let m := d.significand
  let below := if d.fraction = 0 ∧ 1 < d.exponentField then 4 * m - 1 else 4 * m - 2
  let den := if 0 ≤ d.exponent then 4 else 4 * Nat.pow 2 (-d.exponent).toNat
  let scale := if 0 ≤ d.exponent then Nat.pow 2 d.exponent.toNat else 1
  ⟨below * scale, 4 * m * scale, (4 * m + 2) * scale, den, m % 2 == 0⟩

/-- Whether `digits · 10^power` rounds to the double the interval belongs to. -/
def Rounding.holds (r : Rounding) (digits : Nat) (power : Int) : Bool :=
  let (num, den) :=
    if 0 ≤ power then (digits * Nat.pow 10 power.toNat, 1)
    else (digits, Nat.pow 10 (-power).toNat)
  let x := num * r.den
  let low := r.low * den
  let high := r.high * den
  if r.ends then decide (low ≤ x) && decide (x ≤ high) else decide (low < x) && decide (x < high)

/-- The nearest hit on the grid `10^power`, if the interval meets the grid. -/
def Rounding.hit? (r : Rounding) (power : Int) : Option Decimal :=
  let (num, den) := scaled r.value r.den power
  let floor := num / den
  let rest := num % den
  let lower := r.holds floor power && floor != 0
  let upper := r.holds (floor + 1) power
  if lower && upper then
    if 2 * rest < den ∨ (2 * rest = den ∧ floor % 2 = 0) then some ⟨floor, power⟩
    else some ⟨floor + 1, power⟩
  else if lower then some ⟨floor, power⟩
  else if upper then some ⟨floor + 1, power⟩
  else none

/-- Tries grids of more and more digits, from `10^power` down. -/
def Rounding.search (r : Rounding) (power : Int) : Nat → Decimal
  | 0 => (r.hit? power).getD ⟨0, 0⟩
  | fuel + 1 =>
    match r.hit? power with
    | some d => d
    | none => r.search (power - 1) fuel

/-- The shortest decimal that reads back as the magnitude of a finite double. -/
def shortest (d : Double) : Decimal :=
  if d.significand = 0 then ⟨0, 0⟩
  else
    let r := d.rounding
    (r.search (leadingPower r.value r.den) 17).stripZeros 20

end Double

/-- What a number format decides once the digits are known. -/
structure DecimalStyle where
  /-- Positional below `10^positionalTo`. -/
  positionalTo : Int
  /-- Positional from `10^positionalFrom` up. -/
  positionalFrom : Int
  /-- A whole number keeps `.0`. -/
  pointZero : Bool
  /-- A positive exponent is written with `+`. -/
  plusExponent : Bool

/-- Decimal digits of a natural. -/
def digitsOf (n : Nat) : String := String.ofList (Nat.toDigits 10 n)

/-- A text of `n` zeros. -/
def zeros (n : Nat) : String := String.ofList (List.replicate n '0')

namespace DecimalStyle

/-- The magnitude in this style: positional inside its bounds, else one digit before the point and
an exponent. -/
def write (style : DecimalStyle) (d : Decimal) : String :=
  let ds := digitsOf d.digits
  let lead : Int := ds.length + d.power
  if d.digits = 0 then (if style.pointZero then "0.0" else "0")
  else if style.positionalFrom < lead ∧ lead ≤ style.positionalTo then
    if 0 ≤ d.power then ds ++ zeros d.power.toNat ++ (if style.pointZero then ".0" else "")
    else if 0 < lead then
      String.ofList (ds.toList.take lead.toNat) ++ "." ++ String.ofList (ds.toList.drop lead.toNat)
    else "0." ++ zeros (-lead).toNat ++ ds
  else
    let e := lead - 1
    let tail := String.ofList (ds.toList.drop 1)
    String.ofList (ds.toList.take 1) ++ (if tail = "" then "" else "." ++ tail) ++ "e"
      ++ (if e < 0 then "-" else if style.plusExponent then "+" else "") ++ digitsOf e.natAbs

end DecimalStyle

namespace Double

/-- The text of a finite double in a style, with its sign. -/
def write (style : DecimalStyle) (d : Double) : String :=
  (if d.isNegative then "-" else "") ++ style.write d.shortest

/-- The magnitude with exactly `places` digits after the point; a tie goes to the even neighbour. -/
def writeFixed (places : Nat) (d : Double) : String :=
  let (num, den) := d.magnitude
  let scaled := num * Nat.pow 10 places
  let floor := scaled / den
  let rest := scaled % den
  let n := if 2 * rest > den ∨ (2 * rest = den ∧ floor % 2 = 1) then floor + 1 else floor
  let ds := digitsOf n
  let ds := zeros (places + 1 - ds.length) ++ ds
  let cut := ds.length - places
  (if d.isNegative then "-" else "") ++ String.ofList (ds.toList.take cut) ++
    (if places = 0 then "" else "." ++ String.ofList (ds.toList.drop cut))

end Double

end Clearance
