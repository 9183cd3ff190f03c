/-!
# Clearance — Yaml — Glyphs

The characters of a YAML text with their places.  Every line break that is written as a line feed, a
carriage return, both, or a next-line character is one line feed here; the two Unicode separators
break lines as well and stay what they are.
-/

namespace Clearance

namespace Yaml

/-- A character and where it stands. -/
structure Glyph where
  char : Char
  line : Nat
  column : Nat
  /-- How many characters came before it. -/
  index : Nat
  deriving Repr

/-- Whether a character may stand in a YAML text. -/
def isAllowed (c : Char) : Bool :=
  let n := c.toNat
  n == 0x09 || n == 0x0A || n == 0x0D || (0x20 ≤ n && n ≤ 0x7E) || n == 0x85 ||
    (0xA0 ≤ n && n ≤ 0xD7FF) || (0xE000 ≤ n && n ≤ 0xFFFD) || 0x10000 ≤ n

def isBreak (c : Char) : Bool := c == '\n' || c == '\u2028' || c == '\u2029'

def isBlank (c : Char) : Bool := c == ' ' || c == '\t'

/-- Whether nothing, a blank or a break stands there. -/
def isGap : Option Char → Bool
  | none => true
  | some c => isBlank c || isBreak c

/-- Letters, digits, `-` and `_`, of ASCII. -/
def isWordChar (c : Char) : Bool := c.isAlphanum || c == '-' || c == '_'

/-- The mark that may open a text. -/
def byteOrderMark : Char := '\uFEFF'

namespace Glyph

/-- Places the characters of a text, from a place on. -/
def place (line column index : Nat) : List Char → List Glyph
  | [] => []
  | '\r' :: '\n' :: rest => ⟨'\n', line, column, index⟩ :: place (line + 1) 0 (index + 2) rest
  | c :: rest =>
    if c == '\r' || c == '\n' || c == '\u0085' then
      ⟨'\n', line, column, index⟩ :: place (line + 1) 0 (index + 1) rest
    else if isBreak c then ⟨c, line, column, index⟩ :: place (line + 1) 0 (index + 1) rest
    else ⟨c, line, column, index⟩ :: place line (column + 1) (index + 1) rest

/-- The glyphs of a text, if all of its characters are allowed. -/
def ofChars? (cs : List Char) : Option (List Glyph) :=
  let cs := match cs with
    | c :: rest => if c == byteOrderMark then rest else c :: rest
    | [] => []
  if cs.all isAllowed then some (place 0 0 0 cs) else none

end Glyph

/-- The character `k` places ahead. -/
def ahead (k : Nat) (gs : List Glyph) : Option Char := gs[k]?.map Glyph.char

/-- Whether a line of dashes or dots that separates documents starts here. -/
def isSeparator (mark : Char) (gs : List Glyph) : Bool :=
  match gs with
  | g :: _ =>
    g.column == 0 && (gs.take 3).map Glyph.char == [mark, mark, mark] && isGap (ahead 3 gs)
  | [] => false

/-- Whether either separator of documents starts here. -/
def isAnySeparator (gs : List Glyph) : Bool := isSeparator '-' gs || isSeparator '.' gs

end Yaml

end Clearance
