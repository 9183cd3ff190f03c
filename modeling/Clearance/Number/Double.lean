/-!
# Clearance — Number — Double

A double is its 64 bits, so two doubles are equal exactly when they are written the same way, and
equality is decidable inside proofs.  Arithmetic goes through the machine's doubles; everything
about digits goes through the exact value `m · 2^q`.
-/

namespace Clearance

/-- An IEEE 754 double, by its bits. -/
structure Double where
  bits : UInt64
  deriving DecidableEq, Repr, Inhabited

namespace Double

def ofFloat (f : Float) : Double := ⟨f.toBits⟩

def toFloat (d : Double) : Float := Float.ofBits d.bits

/-- The sign bit, which `-0.0` has as well. -/
def isNegative (d : Double) : Bool := d.bits.toNat ≥ Nat.pow 2 63

/-- The eleven bits of the exponent as stored. -/
def exponentField (d : Double) : Nat := d.bits.toNat / Nat.pow 2 52 % Nat.pow 2 11

/-- The fifty-two stored bits of the significand. -/
def fraction (d : Double) : Nat := d.bits.toNat % Nat.pow 2 52

def isFinite (d : Double) : Bool := d.exponentField != 2047

def isNaN (d : Double) : Bool := d.exponentField == 2047 && d.fraction != 0

/-- The significand `m` of the magnitude `m · 2^q`. -/
def significand (d : Double) : Nat :=
  if d.exponentField = 0 then d.fraction else Nat.pow 2 52 + d.fraction

/-- The power `q` of the magnitude `m · 2^q`. -/
def exponent (d : Double) : Int :=
  (if d.exponentField = 0 then 1 else (d.exponentField : Int)) - 1075

def isZero (d : Double) : Bool := d.isFinite && d.significand == 0

/-- The magnitude as a quotient of two naturals. -/
def magnitude (d : Double) : Nat × Nat :=
  if 0 ≤ d.exponent then (d.significand * Nat.pow 2 d.exponent.toNat, 1)
  else (d.significand, Nat.pow 2 (-d.exponent).toNat)

end Double

end Clearance
