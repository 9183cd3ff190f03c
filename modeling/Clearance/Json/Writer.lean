import Clearance.Json.Value

/-!
# Clearance — Json — Writer

Compact JSON text.  Strings escape only the quote, the backslash and control characters; a double is
written with the fewest digits that read back, and always shows a point or an exponent.
-/

namespace Clearance

namespace Json

/-- Doubles are positional from `1e-5` up to below `1e16`, a whole one keeps `.0`, and a positive
exponent has its sign. -/
def doubleStyle : DecimalStyle := ⟨16, -5, true, true⟩

def hexDigit (n : Nat) : Char := Nat.digitChar (n % 16)

/-- One character inside a quoted string. -/
def escapeChar (c : Char) : List Char :=
  match c with
  | '"' => ['\\', '"']
  | '\\' => ['\\', '\\']
  | '\n' => ['\\', 'n']
  | '\r' => ['\\', 'r']
  | '\t' => ['\\', 't']
  | '\x08' => ['\\', 'b']
  | '\x0c' => ['\\', 'f']
  | c =>
    if c.toNat < 32 then ['\\', 'u', '0', '0', hexDigit (c.toNat / 16), hexDigit c.toNat] else [c]

def quote (s : String) : String :=
  String.ofList ('"' :: (s.toList.flatMap escapeChar ++ ['"']))

/-- A double that is no finite number has no JSON form and is written as `null`. -/
def doubleText (d : Double) : String :=
  if d.isFinite then d.write doubleStyle else "null"

mutual

def text : Json → String
  | .null => "null"
  | .bool b => if b then "true" else "false"
  | .int n => toString n
  | .double d => doubleText d
  | .str s => quote s
  | .arr items => "[" ++ itemsText items ++ "]"
  | .obj fields => "\x7b" ++ fieldsText fields ++ "\x7d"

def itemsText : List Json → String
  | [] => ""
  | [x] => text x
  | x :: y :: rest => text x ++ "," ++ itemsText (y :: rest)

def fieldsText : List (String × Json) → String
  | [] => ""
  | [(k, v)] => quote k ++ ":" ++ text v
  | (k, v) :: f :: rest => quote k ++ ":" ++ text v ++ "," ++ fieldsText (f :: rest)

end

end Json

end Clearance
