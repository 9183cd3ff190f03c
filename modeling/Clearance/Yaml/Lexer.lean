import Clearance.Yaml.Scalar

/-!
# Clearance — Yaml — Lexer

Splits a YAML text into tokens.  A collection in block style has no opening mark of its own: that
a piece of text was a key is seen at the colon behind it, so where a key may start the lexer keeps a
`Candidate`, and at the colon it puts the key's tokens in front of what came since.
-/

namespace Clearance

namespace Yaml

/-- Where a key may have started. -/
structure Candidate where
  /-- How many tokens came before it. -/
  tokens : Nat
  line : Nat
  column : Nat
  index : Nat
  /-- Whether nothing but a key can stand there. -/
  required : Bool
  deriving Repr

structure Lexer where
  /-- The tokens so far, the last one first. -/
  tokens : List Token := []
  /-- How many there are. -/
  count : Nat := 0
  /-- The column of the innermost block collection, `-1` outside of all. -/
  indent : Int := -1
  /-- The columns of the collections around it. -/
  outer : List Int := []
  /-- Whether a key may start here. -/
  keyAllowed : Bool := true
  /-- The candidate of the innermost bracket or of the block level. -/
  candidate : Option Candidate := none
  /-- The candidates of the levels around it. -/
  suspended : List (Option Candidate) := []

namespace Lexer

/-- Whether brackets are open. -/
def inFlow (l : Lexer) : Bool := !l.suspended.isEmpty

def emit (l : Lexer) (t : Token) : Lexer := { l with tokens := t :: l.tokens, count := l.count + 1 }

/-- Puts a token where `k` tokens came before. -/
def emitAt (l : Lexer) (k : Nat) (t : Token) : Lexer :=
  { l with tokens := l.tokens.insertIdx (l.count - k) t, count := l.count + 1 }

/-! ### Candidates -/

/-- The longest a key may be. -/
def maxKeyLength : Nat := 1024

/-- Gives up a candidate; a required one may not be given up. -/
def dropCandidate (l : Lexer) : Option Lexer :=
  if l.candidate.any (·.required) then none else some { l with candidate := none }

/-- Notes that a key may start here. -/
def noteCandidate (l : Lexer) (g : Glyph) : Option Lexer :=
  if l.keyAllowed then do
    let l ← l.dropCandidate
    let required := !l.inFlow && l.indent == (g.column : Int)
    some { l with candidate := some ⟨l.count, g.line, g.column, g.index, required⟩ }
  else some l

/-- A candidate as it is when the text has come to `g`: gone, if a line or more than the longest key
has passed. -/
def refresh (g : Glyph) (c : Option Candidate) : Option (Option Candidate) :=
  match c with
  | some c =>
    if c.line < g.line ∨ c.index + maxKeyLength < g.index then
      if c.required then none else some none
    else some (some c)
  | none => some none

def refreshAll (l : Lexer) (g : Glyph) : Option Lexer := do
  let candidate ← refresh g l.candidate
  let suspended ← l.suspended.mapM (refresh g)
  some { l with candidate := candidate, suspended := suspended }

/-! ### Indentation -/

/-- Opens a block collection at a column that is deeper than the innermost one. -/
def openBlock (l : Lexer) (column : Int) (t : Token) (place : Option Nat) : Lexer :=
  if !l.inFlow && l.indent < column then
    let l := { l with indent := column, outer := l.indent :: l.outer }
    match place with
    | some k => l.emitAt k t
    | none => l.emit t
  else l

/-- Closes the block collections deeper than a column. -/
def closeBlocks (column : Int) (l : Lexer) : Lexer :=
  if l.inFlow then l else go l.outer l.indent l
where
  /-- Closes collections from the innermost outward. -/
  go : List Int → Int → Lexer → Lexer
    | outer :: rest, indent, l =>
      if column < indent then
        go rest outer { l.emit .blockEnd with indent := outer, outer := rest }
      else l
    | [], _, l => l

/-! ### Blanks -/

/-- Skips blanks, breaks and comments.  A tab counts as a blank only where it cannot be meant as
indentation.  Answers also whether a key may start behind them. -/
def skipBlanks (flow comment allowed : Bool) : List Glyph → List Glyph × Bool
  | [] => ([], allowed)
  | g :: rest =>
    if isBreak g.char then skipBlanks flow false (if flow then allowed else true) rest
    else if comment then skipBlanks flow true allowed rest
    else if g.column == 0 && g.char == byteOrderMark then skipBlanks flow false allowed rest
    else if g.char == ' ' || (g.char == '\t' && (flow || !allowed)) then
      skipBlanks flow false allowed rest
    else if g.char == '#' then skipBlanks flow true allowed rest
    else (g :: rest, allowed)

/-! ### Tags, anchors and directives -/

def charsOf (gs : List Glyph) : List Char := gs.map Glyph.char

/-- Splits off the glyphs at the start whose characters satisfy `p`, as a text. -/
def spanText (p : Char → Bool) (gs : List Glyph) : String × List Glyph :=
  let taken := gs.takeWhile fun g => p g.char
  (String.ofList (charsOf taken), gs.drop taken.length)

/-- Reads the name of an anchor or alias. -/
def anchorName? (gs : List Glyph) : Option (String × List Glyph) :=
  let (name, rest) := spanText isWordChar gs
  let next := ahead 0 rest
  if name != "" && (isGap next || next.any fun c => "?:,]\x7d%@`".toList.contains c) then some (name, rest)
  else none

/-- The characters of a tag. -/
def isTagChar (verbatim : Bool) (c : Char) : Bool :=
  isWordChar c || ";/?:@&=+$.%!~*'()".toList.contains c || (verbatim && ",[]".toList.contains c)

/-- Replaces the percent escapes of a tag by the bytes they stand for. -/
def unescape? : List Char → Option (List UInt8)
  | [] => some []
  | '%' :: a :: b :: rest => do
    let n ← hexValue? a
    let m ← hexValue? b
    let bytes ← unescape? rest
    some ((n * 16 + m).toUInt8 :: bytes)
  | '%' :: _ => none
  | c :: rest => do
    let bytes ← unescape? rest
    some ((String.singleton c).toUTF8.toList ++ bytes)

/-- The text of a run of tag characters. -/
def tagText? (s : String) : Option String := do
  let bytes ← unescape? s.toList
  String.fromUTF8? ⟨bytes.toArray⟩

/-- Reads a tag behind its exclamation mark, as a handle and what follows the handle. -/
def tag? (gs : List Glyph) : Option (Token × List Glyph) :=
  if ahead 0 gs = some '<' then do
    let (uri, rest) := spanText (isTagChar true) (gs.drop 1)
    let suffix ← tagText? uri
    if suffix != "" && ahead 0 rest = some '>' then some (.tag "" suffix, rest.drop 1) else none
  else do
    let (word, rest) := spanText isWordChar gs
    if ahead 0 rest = some '!' then
      let (uri, rest) := spanText (isTagChar false) (rest.drop 1)
      let suffix ← tagText? uri
      if suffix = "" then none else some (.tag ("!" ++ word ++ "!") suffix, rest)
    else
      let (uri, rest) := spanText (isTagChar false) rest
      let suffix ← tagText? uri
      if word ++ suffix = "" then some (.tag "" "!", rest)
      else some (.tag "!" (word ++ suffix), rest)

/-- A number of at most nine digits. -/
def shortNumber? (gs : List Glyph) : Option (Nat × List Glyph) :=
  let (digits, rest) := spanText Char.isDigit gs
  if digits = "" ∨ 9 < digits.length then none else digits.toNat?.map (·, rest)

/-- Skips blanks, of which there has to be one. -/
def someBlanks? (gs : List Glyph) : Option (List Glyph) :=
  if (ahead 0 gs).any isBlank then some (gs.dropWhile fun g => isBlank g.char) else none

/-- Reads a directive behind its percent sign. -/
def directive? (gs : List Glyph) : Option (Token × List Glyph) := do
  let (name, gs) := spanText isWordChar gs
  if !isGap (ahead 0 gs) then none
  let (t, gs) ←
    if name = "YAML" then do
      let (major, gs) ← shortNumber? (gs.dropWhile fun g => isBlank g.char)
      if ahead 0 gs ≠ some '.' then none
      let (minor, gs) ← shortNumber? (gs.drop 1)
      some (Token.version major minor, gs)
    else if name = "TAG" then do
      let gs := gs.dropWhile fun g => isBlank g.char
      if ahead 0 gs ≠ some '!' then none
      let (word, gs) := spanText isWordChar (gs.drop 1)
      let (handle, gs) ←
        if ahead 0 gs = some '!' then some ("!" ++ word ++ "!", gs.drop 1)
        else if word = "" then some ("!", gs)
        else none
      let gs ← someBlanks? gs
      let (uri, gs) := spanText (isTagChar true) gs
      let start ← tagText? uri
      if start = "" ∨ !isGap (ahead 0 gs) then none
      some (Token.tagHandle handle start, gs)
    else none
  let gs ← skipHeaderLine? gs
  some (t, gs)

/-! ### Steps -/

/-- Whether plain text may start here. -/
def startsPlain (flow : Bool) (c : Char) (next : Option Char) : Bool :=
  let blankNext := next.any isBlank
  if c == '-' then !blankNext
  else if c == '?' || c == ':' then !flow && !isGap next
  else !isBlank c && !",[]\x7b\x7d#&*!|>'\"%@`".toList.contains c

/-- Leaves all block collections, for what stands between documents. -/
def leaveBlocks (l : Lexer) : Option Lexer := do
  let l ← (l.closeBlocks (-1)).dropCandidate
  some { l with keyAllowed := false }

/-- Opens a bracket. -/
def openFlow (l : Lexer) (g : Glyph) (t : Token) : Option Lexer := do
  let l ← l.noteCandidate g
  some { l.emit t with
    candidate := none
    suspended := l.candidate :: l.suspended
    keyAllowed := true }

/-- Closes a bracket. -/
def closeFlow (l : Lexer) (t : Token) : Option Lexer := do
  let l ← l.dropCandidate
  let l := { l.emit t with keyAllowed := false }
  match l.suspended with
  | c :: rest => some { l with candidate := c, suspended := rest }
  | [] => some l

/-- Takes the indicator of an item of a block sequence. -/
def takeEntry (l : Lexer) (g : Glyph) : Option Lexer := do
  if !l.inFlow && !l.keyAllowed then none
  let l ← (l.openBlock g.column .blockSequence none).dropCandidate
  some { l.emit .blockEntry with keyAllowed := true }

/-- Takes the indicator of a key. -/
def takeKey (l : Lexer) (g : Glyph) : Option Lexer := do
  if !l.inFlow && !l.keyAllowed then none
  let l ← (l.openBlock g.column .blockMapping none).dropCandidate
  some { l.emit .key with keyAllowed := !l.inFlow }

/-- Takes the colon in front of a value.  A candidate turns out to have been its key. -/
def takeValue (l : Lexer) (g : Glyph) : Option Lexer :=
  match l.candidate with
  | some c =>
    let l := (l.emitAt c.tokens .key).openBlock c.column .blockMapping (some c.tokens)
    some { l.emit .value with candidate := none, keyAllowed := false }
  | none => do
    if !l.inFlow && !l.keyAllowed then none
    let l := l.openBlock g.column .blockMapping none
    some { l.emit .value with keyAllowed := !l.inFlow }

/-- Takes a scalar, an anchor, an alias or a tag, which may be or open a key. -/
def takeContent (l : Lexer) (g : Glyph) (t : Token) : Option Lexer := do
  let l ← l.noteCandidate g
  some { l.emit t with keyAllowed := false }

/-- Takes the token that starts at `g`. -/
def step (l : Lexer) (g : Glyph) (rest : List Glyph) : Option (Lexer × List Glyph) := do
  let gs := g :: rest
  let next := ahead 0 rest
  if g.column == 0 && g.char == '%' then
    let l ← l.leaveBlocks
    let (t, rest) ← directive? rest
    some (l.emit t, rest)
  else if isSeparator '-' gs then
    let l ← l.leaveBlocks
    some (l.emit .documentStart, gs.drop 3)
  else if isSeparator '.' gs then
    let l ← l.leaveBlocks
    some (l.emit .documentEnd, gs.drop 3)
  else if g.char == '[' then (l.openFlow g .flowSequence).map (·, rest)
  else if g.char == '\x7b' then (l.openFlow g .flowMapping).map (·, rest)
  else if g.char == ']' then (l.closeFlow .flowSequenceEnd).map (·, rest)
  else if g.char == '\x7d' then (l.closeFlow .flowMappingEnd).map (·, rest)
  else if g.char == ',' then
    let l ← l.dropCandidate
    some ({ l.emit .flowEntry with keyAllowed := true }, rest)
  else if g.char == '-' && isGap next then (l.takeEntry g).map (·, rest)
  else if g.char == '?' && (l.inFlow || isGap next) then (l.takeKey g).map (·, rest)
  else if g.char == ':' && (l.inFlow || isGap next) then (l.takeValue g).map (·, rest)
  else if g.char == '*' then
    let (name, rest) ← anchorName? rest
    (l.takeContent g (.alias name)).map (·, rest)
  else if g.char == '&' then
    let (name, rest) ← anchorName? rest
    (l.takeContent g (.anchor name)).map (·, rest)
  else if g.char == '!' then
    let (t, rest) ← tag? rest
    if isGap (ahead 0 rest) || (l.inFlow && ahead 0 rest = some ',') then
      (l.takeContent g t).map (·, rest)
    else none
  else if (g.char == '|' || g.char == '>') && !l.inFlow then
    let l ← l.dropCandidate
    let (text, rest) ← blockScalar (g.char == '>') l.indent rest
    some ({ l.emit (.scalar text (if g.char == '>' then .folded else .literal)) with
      keyAllowed := true }, rest)
  else if g.char == '\'' then
    let (text, rest) ← singleQuoted {} rest
    (l.takeContent g (.scalar text .quoted)).map (·, rest)
  else if g.char == '"' then
    let (text, rest) ← doubleQuoted 0 {} rest
    (l.takeContent g (.scalar text .quoted)).map (·, rest)
  else if startsPlain l.inFlow g.char next then
    let (text, rest, later) ← plainText l.inFlow (l.indent + 1) {} gs
    let l ← l.takeContent g (.scalar text .plain)
    some ({ l with keyAllowed := later }, rest)
  else none

/-- Takes token after token until the text ends. -/
def run (fuel : Nat) (l : Lexer) (gs : List Glyph) : Option (List Token) :=
  let (gs, allowed) := skipBlanks l.inFlow false l.keyAllowed gs
  let l := { l with keyAllowed := allowed }
  match gs with
  | [] => do
    let l ← (l.closeBlocks (-1)).dropCandidate
    some l.tokens.reverse
  | g :: rest =>
    match fuel with
    | 0 => none
    | fuel + 1 => do
      let l ← l.refreshAll g
      let (l, rest) ← (l.closeBlocks g.column).step g rest
      run fuel l rest

end Lexer

/-- The tokens of a text, if it can be split into tokens. -/
def tokens? (cs : List Char) : Option (List Token) := do
  let gs ← Glyph.ofChars? cs
  Lexer.run (gs.length + 1) {} gs

end Yaml

end Clearance
