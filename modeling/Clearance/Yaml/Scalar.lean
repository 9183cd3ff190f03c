import Clearance.Yaml.Token

/-!
# Clearance — Yaml — Scalars

Reads the text of a scalar in each of its styles.  Within plain and quoted text, blanks around a line
break go, a single break becomes a space, and further breaks stay; `Fold` keeps what was met since the
last visible character.  Block scalars are read line by line.
-/

namespace Clearance

namespace Yaml

/-! ### Folding -/

structure Fold where
  /-- The text so far, last character first. -/
  text : List Char := []
  /-- Blanks met since, last first, while on one line. -/
  blanks : List Char := []
  /-- The first break met since. -/
  firstBreak : List Char := []
  /-- The other breaks, last first. -/
  moreBreaks : List Char := []
  /-- Whether a break was met. -/
  broken : Bool := false

namespace Fold

/-- Takes a blank or a break. -/
def gap (f : Fold) (c : Char) : Fold :=
  if isBreak c then
    if f.broken then { f with moreBreaks := c :: f.moreBreaks }
    else { f with blanks := [], firstBreak := [c], broken := true }
  else if f.broken then f
  else { f with blanks := c :: f.blanks }

/-- Brings what was met into the text. -/
def join (f : Fold) : Fold :=
  let met :=
    if f.broken then
      if f.firstBreak == ['\n'] then (if f.moreBreaks.isEmpty then [' '] else f.moreBreaks)
      else f.moreBreaks ++ f.firstBreak
    else f.blanks
  { text := met ++ f.text }

/-- Takes a visible character. -/
def push (f : Fold) (c : Char) : Fold := { f.join with text := c :: f.join.text }

def written (f : Fold) : String := String.ofList f.text.reverse

/-- Whether anything was met since the last visible character. -/
def isPending (f : Fold) : Bool := f.broken || !f.blanks.isEmpty

end Fold

/-! ### Plain text -/

/-- Whether a character separates items within brackets. -/
def isFlowMark (c : Char) : Bool := c == ',' || c == '[' || c == ']' || c == '{' || c == '}'

/-- Reads plain text that has to be indented by `indent` columns.  Answers it with the rest, and
whether the rest starts on a later line. -/
def plainText (flow : Bool) (indent : Int) (f : Fold) :
    List Glyph → Option (String × List Glyph × Bool)
  | [] => some (f.written, [], f.broken)
  | g :: rest =>
    let stop := some (f.written, g :: rest, f.broken)
    if isBlank g.char || isBreak g.char then
      if f.broken && (g.column : Int) < indent && g.char == '\t' then none
      else plainText flow indent (f.gap g.char) rest
    else if f.isPending &&
        ((!flow && f.broken && (g.column : Int) < indent) || isAnySeparator (g :: rest) || g.char == '#')
      then stop
    else
      let next := ahead 0 rest
      if flow && g.char == ':' && (next.any fun c => isFlowMark c || c == '?') then none
      else if (g.char == ':' && isGap next) || (flow && isFlowMark g.char) then stop
      else plainText flow indent (f.push g.char) rest

/-! ### Quoted text -/

/-- The character an escape in double quotes stands for. -/
def escapeLetter? : Char → Option Char
  | '0' => some '\x00'
  | 'a' => some '\x07'
  | 'b' => some '\x08'
  | 't' => some '\t'
  | '\t' => some '\t'
  | 'n' => some '\n'
  | 'v' => some '\x0b'
  | 'f' => some '\x0c'
  | 'r' => some '\r'
  | 'e' => some '\x1b'
  | ' ' => some ' '
  | '"' => some '"'
  | '/' => some '/'
  | '\\' => some '\\'
  | 'N' => some '\u0085'
  | '_' => some '\u00a0'
  | 'L' => some '\u2028'
  | 'P' => some '\u2029'
  | _ => none

/-- How many hexadecimal digits follow an escape. -/
def escapeWidth? : Char → Option Nat
  | 'x' => some 2
  | 'u' => some 4
  | 'U' => some 8
  | _ => none

def hexValue? (c : Char) : Option Nat :=
  if c.isDigit then some (c.toNat - '0'.toNat)
  else if 'a' ≤ c ∧ c ≤ 'f' then some (c.toNat - 'a'.toNat + 10)
  else if 'A' ≤ c ∧ c ≤ 'F' then some (c.toNat - 'A'.toNat + 10)
  else none

/-- The character of a code point given in hexadecimal. -/
def charOfHex? (digits : List Char) : Option Char := do
  let n ← digits.foldlM (fun n c => (hexValue? c).map (n * 16 + ·)) 0
  if h : n.isValidChar then some (Char.ofNatAux n h) else none

/-- Reads text behind a single quote up to the one that closes it; a quote inside is written twice. -/
def singleQuoted (f : Fold) : List Glyph → Option (String × List Glyph)
  | [] => none
  | g :: rest =>
    if isAnySeparator (g :: rest) then none
    else if isBlank g.char || isBreak g.char then singleQuoted (f.gap g.char) rest
    else if g.char == '\'' then
      match rest with
      | q :: rest =>
        if q.char == '\'' then singleQuoted (f.push '\'') rest
        else some (f.join.written, q :: rest)
      | [] => some (f.join.written, [])
    else singleQuoted (f.push g.char) rest

/-- Reads text behind a double quote up to the one that closes it.  `owed` counts the characters
that belong to an escape that was read already. -/
def doubleQuoted (owed : Nat) (f : Fold) : List Glyph → Option (String × List Glyph)
  | [] => none
  | g :: rest =>
    match owed with
    | owed + 1 => doubleQuoted owed f rest
    | 0 =>
      if isAnySeparator (g :: rest) then none
      else if isBlank g.char || isBreak g.char then doubleQuoted 0 (f.gap g.char) rest
      else if g.char == '"' then some (f.join.written, rest)
      else if g.char == '\\' then
        match ahead 0 rest with
        | none => none
        | some e =>
          if isBreak e then doubleQuoted 1 { f.join with broken := true } rest
          else
            match escapeLetter? e, escapeWidth? e with
            | some c, _ => doubleQuoted 1 (f.push c) rest
            | none, some width =>
              let digits := ((rest.drop 1).take width).map Glyph.char
              if digits.length = width then
                match charOfHex? digits with
                | some c => doubleQuoted (width + 1) (f.push c) rest
                | none => none
              else none
            | none, none => none
      else doubleQuoted 0 (f.push g.char) rest

/-! ### Block scalars -/

/-- What becomes of the breaks at the end of a block scalar. -/
inductive Chomp where
  | strip
  | clip
  | keep
  deriving DecidableEq, Repr

/-- What stands behind the indicator of a block scalar: how to chomp, and by how much the text is
indented if that is said. -/
structure BlockHeader where
  chomp : Chomp := .clip
  increment : Option Nat := none

def chomp? : Char → Option Chomp
  | '+' => some .keep
  | '-' => some .strip
  | _ => none

/-- The increment a digit stands for; it may not be zero. -/
def increment? (c : Char) : Option Nat :=
  if c.isDigit && c != '0' then some (c.toNat - '0'.toNat) else none

/-- Reads the header, in either order. -/
def blockHeader? (gs : List Glyph) : Option (BlockHeader × List Glyph) :=
  match gs with
  | [] => some ({}, [])
  | g :: rest =>
    match chomp? g.char with
    | some chomp =>
      match rest with
      | d :: rest' =>
        if d.char.isDigit then (increment? d.char).map fun n => (⟨chomp, some n⟩, rest')
        else some (⟨chomp, none⟩, rest)
      | [] => some (⟨chomp, none⟩, [])
    | none =>
      if g.char.isDigit then do
        let n ← increment? g.char
        match rest with
        | d :: rest' =>
          match chomp? d.char with
          | some chomp => some (⟨chomp, some n⟩, rest')
          | none => some (⟨.clip, some n⟩, rest)
        | [] => some (⟨.clip, some n⟩, [])
      else some ({}, gs)

/-- Skips what may stand behind a header: blanks and a comment, then the break. -/
def skipHeaderLine? (gs : List Glyph) : Option (List Glyph) :=
  let gs := gs.dropWhile fun g => isBlank g.char
  let gs := if ahead 0 gs = some '#' then gs.dropWhile fun g => !isBreak g.char else gs
  match gs with
  | [] => some []
  | g :: rest => if isBreak g.char then some rest else none

/-- The empty lines before a line of a block scalar. -/
structure EmptyLines where
  /-- The breaks, in order. -/
  breaks : List Char
  /-- The widest indentation met. -/
  widest : Nat
  rest : List Glyph

/-- Skips empty lines and indentation, of `indent` columns or, if that is zero, of as many as there
are. -/
def emptyLines? (indent widest : Nat) (breaks : List Char) : List Glyph → Option EmptyLines
  | [] => some ⟨breaks.reverse, widest, []⟩
  | g :: rest =>
    let inside := indent = 0 ∨ g.column < indent
    if inside ∧ g.char = ' ' then emptyLines? indent widest breaks rest
    else if inside ∧ g.char = '\t' then none
    else
      let widest := max widest g.column
      if isBreak g.char then emptyLines? indent widest (g.char :: breaks) rest
      else some ⟨breaks.reverse, widest, g :: rest⟩

/-- The lines of a block scalar as read so far. -/
structure Block where
  text : List Char := []
  /-- The break of the last line. -/
  lastBreak : List Char := []
  /-- The empty lines behind it. -/
  trailing : List Char := []
  /-- Whether the last line started with a blank. -/
  blankStart : Bool := false

/-- Adds a line.  When folding, a break between two lines that start visibly becomes a space, or goes
if empty lines follow it. -/
def Block.addLine (b : Block) (folded : Bool) (line : List Char) : Block :=
  let blankStart := line.head?.any isBlank
  let between :=
    if folded && b.lastBreak == ['\n'] && !b.blankStart && !blankStart then
      if b.trailing.isEmpty then [' '] else b.trailing
    else b.lastBreak ++ b.trailing
  { text := b.text ++ between ++ line, blankStart := blankStart }

def Block.finish (b : Block) : Chomp → String
  | .strip => String.ofList b.text
  | .clip => String.ofList (b.text ++ b.lastBreak)
  | .keep => String.ofList (b.text ++ b.lastBreak ++ b.trailing)

/-- Reads the lines indented by `indent`. -/
def blockLines (folded : Bool) (indent : Nat) (fuel : Nat) (b : Block) (gs : List Glyph) :
    Option (Block × List Glyph) :=
  match fuel, gs with
  | fuel + 1, g :: _ =>
    if g.column = indent then do
      let line := (gs.takeWhile fun g => !isBreak g.char).map Glyph.char
      let after := gs.drop line.length
      let empty ← emptyLines? indent 0 [] (after.drop 1)
      let b := b.addLine folded line
      blockLines folded indent fuel
        { b with lastBreak := (ahead 0 after).toList, trailing := empty.breaks } empty.rest
    else some (b, gs)
  | _, _ => some (b, gs)

/-- Reads a block scalar behind its indicator, inside a collection indented by `parent`. -/
def blockScalar (folded : Bool) (parent : Int) (gs : List Glyph) :
    Option (String × List Glyph) := do
  let (header, gs) ← blockHeader? gs
  let gs ← skipHeaderLine? gs
  let given := match header.increment with
    | some n => if 0 ≤ parent then parent.toNat + n else n
    | none => 0
  let empty ← emptyLines? given 0 [] gs
  let indent := if given = 0 then max (max empty.widest (parent + 1).toNat) 1 else given
  let (b, rest) ← blockLines folded indent (gs.length + 1) { trailing := empty.breaks } empty.rest
  some (b.finish header.chomp, rest)

end Yaml

end Clearance
