import Clearance.Number.Double

/-!
# Clearance — Number — Reading

Reads decimal text as the nearest double.  The grammar is digits with at most one point among or
beside them, and possibly an exponent; one digit has to be there.
-/

namespace Clearance

/-- A sign at the start of a text, and the text without it. -/
def splitSign : List Char → Bool × List Char
  | '-' :: rest => (true, rest)
  | '+' :: rest => (false, rest)
  | cs => (false, cs)

/-- The value of decimal digits. -/
def natOfDigits (cs : List Char) : Nat :=
  cs.foldl (fun n c => n * 10 + (c.toNat - '0'.toNat)) 0

/-- A nonempty run of decimal digits. -/
def allDigits (cs : List Char) : Bool := !cs.isEmpty && cs.all Char.isDigit

namespace Double

/-- The double nearest to `digits · 10^power`; infinite where that is out of range. -/
def ofDecimal (digits : Nat) (power : Int) : Double :=
  if digits = 0 then .ofFloat 0
  else
    let size : Int := (Nat.toDigits 10 digits).length + power
    if 400 < size then .ofFloat (1 / 0)
    else if size < -400 then .ofFloat 0
    else if 0 ≤ power then .ofFloat (Float.ofScientific digits false power.toNat)
    else .ofFloat (Float.ofScientific digits true (-power).toNat)

def negate (d : Double) : Double := .ofFloat (-d.toFloat)

/-- The exponent behind a significand: nothing, or `e` with digits. -/
def exponentOf? : List Char → Option Int
  | [] => some 0
  | e :: rest =>
    if e == 'e' || e == 'E' then
      let (negative, digits) := splitSign rest
      if allDigits digits then
        some (if negative then -(natOfDigits digits : Int) else natOfDigits digits)
      else none
    else none

/-- The double a text names in decimal. -/
def parse? (cs : List Char) : Option Double := do
  let (negative, cs) := splitSign cs
  let whole := cs.takeWhile Char.isDigit
  let rest := cs.drop whole.length
  let (decimals, rest) := match rest with
    | '.' :: rest =>
      let decimals := rest.takeWhile Char.isDigit
      (decimals, rest.drop decimals.length)
    | rest => ([], rest)
  if whole.isEmpty && decimals.isEmpty then none
  else
    let exponent ← exponentOf? rest
    let d := ofDecimal (natOfDigits (whole ++ decimals)) (exponent - decimals.length)
    some (if negative then d.negate else d)

end Double

end Clearance
