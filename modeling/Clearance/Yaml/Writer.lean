import Clearance.Json.Value
import Clearance.Yaml.Core

/-!
# Clearance — Yaml — Writer

Writes a value as a YAML document in block style.  Each level is indented by two columns, but the
items of a sequence stand under their key.  Empty collections are in brackets.  A text is plain where
it reads back as itself; otherwise it is quoted, and one with a line feed is a literal block.
-/

namespace Clearance

namespace Yaml

/-! ### Texts -/

/-- Whether a character is written as it is. -/
def isPrintable (c : Char) : Bool :=
  let n := c.toNat
  n == 0x0A || (0x20 ≤ n && n ≤ 0x7E) || (0xA0 ≤ n && n ≤ 0xD7FF) ||
    (0xE000 ≤ n && n ≤ 0xFFFD && n != 0xFEFF) || 0x10000 ≤ n

/-- A character that breaks lines, however it is written. -/
def breaksLine (c : Char) : Bool := isBreak c || c == '\r' || c == '\u0085'

/-- Whether a character in the middle of plain text ends it or could. -/
def endsPlain (cs : List Char) : Bool :=
  match cs with
  | a :: b :: rest =>
    (b == ':' && (rest.head?.all fun c => isBlank c || breaksLine c)) ||
      (b == '#' && (isBlank a || breaksLine a)) || endsPlain (b :: rest)
  | _ => false

/-- Whether a text may not start plain with this character. -/
def startsWithMark (cs : List Char) : Bool :=
  match cs with
  | [] => false
  | c :: rest =>
    "#,[]\x7b\x7d&*!|>'\"%@`".toList.contains c ||
      ((c == '?' || c == ':' || c == '-') && rest.head?.all fun d => isBlank d || breaksLine d)

/-- Whether two neighbours in a text satisfy `p`. -/
def anyNeighbours (p : Char → Char → Bool) : List Char → Bool
  | a :: b :: rest => p a b || anyNeighbours p (b :: rest)
  | _ => false

def startsWithSeparator (cs : List Char) : Bool :=
  cs.take 3 == ['-', '-', '-'] || cs.take 3 == ['.', '.', '.']

/-- Whether a text has characters, or places of breaks, that only double quotes can hold. -/
def needsEscapes (cs : List Char) : Bool :=
  cs.any (fun c => !isPrintable c) || anyNeighbours (fun a b => a == ' ' && breaksLine b) cs

/-- Whether a text may be plain in a block. -/
def plainFits (cs : List Char) : Bool :=
  !cs.isEmpty && !needsEscapes cs && !cs.any breaksLine &&
    cs.head? != some ' ' && cs.getLast? != some ' ' &&
    !startsWithSeparator cs && !startsWithMark cs && !endsPlain cs

/-- Whether a text may be in single quotes. -/
def singleQuotesFit (cs : List Char) : Bool :=
  !needsEscapes cs && !anyNeighbours (fun a b => breaksLine a && b == ' ') cs

/-- Whether a text may be a literal block. -/
def literalFits (cs : List Char) : Bool :=
  !cs.isEmpty && !needsEscapes cs && cs.getLast? != some ' '

/-- An upper-case hexadecimal number of a width. -/
def hexOfWidth (width n : Nat) : List Char :=
  let digits := (Nat.toDigits 16 n).map Char.toUpper
  List.replicate (width - digits.length) '0' ++ digits

def escaped (c : Char) : List Char :=
  match c with
  | '\x00' => ['\\', '0']
  | '\x07' => ['\\', 'a']
  | '\x08' => ['\\', 'b']
  | '\t' => ['\\', 't']
  | '\n' => ['\\', 'n']
  | '\x0b' => ['\\', 'v']
  | '\x0c' => ['\\', 'f']
  | '\r' => ['\\', 'r']
  | '\x1b' => ['\\', 'e']
  | '"' => ['\\', '"']
  | '\\' => ['\\', '\\']
  | '\u0085' => ['\\', 'N']
  | '\u2028' => ['\\', 'L']
  | '\u2029' => ['\\', 'P']
  | c =>
    let n := c.toNat
    if isPrintable c then [c]
    else if n ≤ 0xFF then ['\\', 'x'] ++ hexOfWidth 2 n
    else if n ≤ 0xFFFF then ['\\', 'u'] ++ hexOfWidth 4 n
    else ['\\', 'U'] ++ hexOfWidth 8 n

def doubleQuotedText (cs : List Char) : List Char := '"' :: cs.flatMap escaped ++ ['"']

def spaces (n : Nat) : List Char := List.replicate n ' '

/-- Text in single quotes whose lines are indented. -/
def singleQuotedBody (indent : Nat) (broken : Bool) : List Char → List Char
  | [] => if broken then spaces indent else []
  | c :: rest =>
    if breaksLine c then c :: singleQuotedBody indent true rest
    else
      (if broken then spaces indent else []) ++ (if c == '\'' then ['\'', '\''] else [c]) ++
        singleQuotedBody indent false rest

def singleQuotedText (indent : Nat) (cs : List Char) : List Char :=
  '\'' :: singleQuotedBody indent false cs ++ ['\'']

/-- The lines of a literal block, each indented unless it is empty. -/
def literalBody (indent : Nat) (broken : Bool) : List Char → List Char
  | [] => []
  | c :: rest =>
    if breaksLine c then c :: literalBody indent true rest
    else (if broken then spaces indent else []) ++ c :: literalBody indent false rest

/-- What the header of a literal block says of its indentation and of the breaks at its end. -/
def literalHints (cs : List Char) : List Char :=
  (if cs.head?.any fun c => c == ' ' || breaksLine c then ['2'] else []) ++
    match cs.reverse with
    | [] => ['-']
    | last :: before =>
      if !breaksLine last then ['-']
      else
        match before with
        | [] => ['+']
        | c :: _ => if breaksLine c then ['+'] else []

def literalText (indent : Nat) (cs : List Char) : List Char :=
  '|' :: literalHints cs ++ '\n' :: literalBody indent true cs

/-- Whether a plain text would be read as a text. -/
def readsAsText (s : String) : Bool :=
  match Core.ofPlain s with
  | .text _ => !Core.isZeroPadded s.toList
  | _ => false

/-- A text in quotes, single ones if they can hold it. -/
def quotedText (indent : Nat) (cs : List Char) : List Char :=
  if singleQuotesFit cs then singleQuotedText indent cs else doubleQuotedText cs

/-- A text whose further lines are indented by `indent`. -/
def textChars (indent : Nat) (s : String) : List Char :=
  let cs := s.toList
  if cs.contains '\n' then
    if literalFits cs then literalText indent cs else doubleQuotedText cs
  else if readsAsText s && plainFits cs then cs
  else quotedText indent cs

/-- Whether a text may be a key on one line. -/
def fitsAsKey (s : String) : Bool := !s.toList.any breaksLine && s.utf8ByteSize ≤ 128

/-! ### Values -/

/-- Doubles are written as in JSON, but a positive exponent has no sign. -/
def doubleStyle : DecimalStyle := ⟨16, -5, true, false⟩

def scalarChars (indent : Nat) : Json → List Char
  | .null => "null".toList
  | .bool b => (if b then "true" else "false").toList
  | .int n => (toString n).toList
  | .double d => (d.write doubleStyle).toList
  | .str s => textChars indent s
  | .arr _ => ['[', ']']
  | .obj _ => ['\x7b', '\x7d']

/-- Ends a line that is not ended yet. -/
def endLine (cs : List Char) : List Char :=
  if cs.getLast?.any breaksLine then cs else cs ++ ['\n']

mutual

/-- What stands behind the indicator of a value, at a level indented by `indent`.  Inside a line the
first entry of a collection follows at once; behind a key it starts a line. -/
def valueChars (indent : Nat) (inLine : Bool) : Json → List Char
  | .arr (x :: rest) =>
    if inLine then ' ' :: itemsChars (indent + 2) true (x :: rest)
    else '\n' :: itemsChars indent false (x :: rest)
  | .obj (f :: rest) =>
    if inLine then ' ' :: entriesChars (indent + 2) true (f :: rest)
    else '\n' :: entriesChars (indent + 2) false (f :: rest)
  | v => ' ' :: scalarChars (indent + 2) v

/-- The lines of a sequence's items; the first goes on in the line it is in, if `inLine`. -/
def itemsChars (indent : Nat) (inLine : Bool) : List Json → List Char
  | [] => []
  | x :: rest =>
    (if inLine then [] else spaces indent) ++ '-' :: endLine (valueChars indent true x) ++
      itemsChars indent false rest

/-- The lines of a mapping's entries.  A key that does not fit on its line is marked as one. -/
def entriesChars (indent : Nat) (inLine : Bool) : List (String × Json) → List Char
  | [] => []
  | (k, v) :: rest =>
    (if inLine then [] else spaces indent) ++
      (if fitsAsKey k then textChars (indent + 2) k ++ ':' :: endLine (valueChars indent false v)
        else
          '?' :: ' ' :: endLine (textChars (indent + 2) k) ++
            spaces indent ++ ':' :: endLine (valueChars indent true v)) ++
      entriesChars indent false rest

end

/-- The characters of a value as a document. -/
def documentChars : Json → List Char
  | .obj (f :: rest) => entriesChars 0 false (f :: rest)
  | .arr (x :: rest) => itemsChars 0 false (x :: rest)
  | v => endLine (scalarChars 0 v)

/-- A value as a document. -/
def document (j : Json) : String := String.ofList (documentChars j)

end Yaml

end Clearance
