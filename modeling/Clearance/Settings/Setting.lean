import Clearance.Number.Reading
import Clearance.Number.Shortest
import Clearance.Text.Upper

/-!
# Clearance — Settings — Raw settings

A setting as a file or the environment gives it.  Each field of the engine's settings wants a type of
its own, so a raw setting is converted where that has a clear meaning: numbers and booleans into each
other and into texts, and texts where they spell a number or a yes or no.
-/

namespace Clearance

inductive Setting where
  | nothing
  | bool (b : Bool)
  | int (n : Int)
  | double (d : Double)
  | text (s : String)
  /-- A list or a table, which no field wants. -/
  | collection
  deriving DecidableEq, Repr

namespace Setting

/-- Whether a text says yes or no. -/
def yesNo? (s : String) : Option Bool :=
  let word := Text.lowerAscii s
  if word == "true" || word == "on" || word == "yes" then some true
  else if word == "false" || word == "off" || word == "no" then some false
  else none

/-- An integer in decimal, possibly signed. -/
def intOfText? (s : String) : Option Int :=
  let (negative, digits) := splitSign s.toList
  if allDigits digits then
    some (if negative then -(natOfDigits digits : Int) else natOfDigits digits)
  else none

/-- The largest natural a setting may be. -/
def largest : Nat := Nat.pow 2 64 - 1

/-- The nearest natural to a double, away from zero at a half, within the range of settings. -/
def roundToNatural (d : Double) : Nat :=
  if d.isNaN || d.isNegative then 0
  else if !d.isFinite then largest
  else
    let (num, den) := d.magnitude
    min largest ((2 * num + den) / (2 * den))

/-- The setting as a natural of 64 bits. -/
def natural? : Setting → Option Nat
  | .int n => if 0 ≤ n then some n.toNat else none
  | .bool b => some (if b then 1 else 0)
  | .double d => some (roundToNatural d)
  | .text s =>
    match yesNo? s with
    | some b => some (if b then 1 else 0)
    | none =>
      match s.toList with
      | '-' :: _ => none
      | _ => (intOfText? s).bind fun n => if n ≤ largest then some n.toNat else none
  | .nothing | .collection => none

/-- The setting as a boolean; a number is true unless it is zero. -/
def boolean? : Setting → Option Bool
  | .bool b => some b
  | .int n => some (n != 0)
  | .double d => some (!d.isZero)
  | .text "1" => some true
  | .text "0" => some false
  | .text s => yesNo? s
  | .nothing | .collection => none

/-- Doubles in settings are always positional, and a whole one has no point. -/
def doubleStyle : DecimalStyle := ⟨400, -400, false, false⟩

def doubleText (d : Double) : String :=
  if d.isNaN then "NaN"
  else if d.isFinite then d.write doubleStyle
  else if d.isNegative then "-inf"
  else "inf"

/-- The setting as a text. -/
def text? : Setting → Option String
  | .text s => some s
  | .bool b => some (if b then "true" else "false")
  | .int n => some (toString n)
  | .double d => some (doubleText d)
  | .nothing | .collection => none

/-- A double by its name, infinite or not a number. -/
def namedDouble? (s : String) : Option Double :=
  let (negative, word) := splitSign (Text.lowerAscii s).toList
  let sign (d : Double) : Double := if negative then d.negate else d
  if word == "inf".toList || word == "infinity".toList then some (sign (.ofFloat (1 / 0)))
  else if word == "nan".toList then some (sign ⟨0x7ff8000000000000⟩)
  else none

/-- What the text of an environment variable stands for: a boolean in any case of letters, else an
integer of 64 bits, else a double, else itself. -/
def ofEnvironment (s : String) : Setting :=
  let word := Text.lowerAscii s
  if word == "true" then .bool true
  else if word == "false" then .bool false
  else
    match (intOfText? s).filter fun n => -(Nat.pow 2 63 : Int) ≤ n ∧ n < Nat.pow 2 63 with
    | some n => .int n
    | none =>
      match (namedDouble? s).or (Double.parse? s.toList) with
      | some d => .double d
      | none => .text s

end Setting

end Clearance
