/-!
# Clearance — Text — Percent escapes

Bytes written as a percent sign and two hexadecimal digits, as in addresses.
-/

namespace Clearance

namespace Text

def hexDigitValue? (b : UInt8) : Option UInt8 :=
  if 48 ≤ b ∧ b ≤ 57 then some (b - 48)
  else if 65 ≤ b ∧ b ≤ 70 then some (b - 55)
  else if 97 ≤ b ∧ b ≤ 102 then some (b - 87)
  else none

/-- The byte of two hexadecimal digits. -/
def hexByte? (high low : UInt8) : Option UInt8 := do
  some ((← hexDigitValue? high) * 16 + (← hexDigitValue? low))

/-- The code of the percent sign. -/
def percentSign : UInt8 := 37

/-- Replaces each escape by its byte; a percent sign without two digits stays. -/
def unescapeBytes : List UInt8 → List UInt8
  | b :: high :: low :: rest =>
    if b = percentSign then
      match hexByte? high low with
      | some byte => byte :: unescapeBytes rest
      | none => b :: unescapeBytes (high :: low :: rest)
    else b :: unescapeBytes (high :: low :: rest)
  | bytes => bytes
termination_by bytes => bytes.length

/-- The text that an escaped one stands for, if its bytes are a text. -/
def unescape? (s : String) : Option String :=
  String.fromUTF8? ⟨(unescapeBytes s.toUTF8.toList).toArray⟩

end Text

end Clearance
