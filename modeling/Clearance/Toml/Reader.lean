import Clearance.Number.Reading
import Clearance.Toml.Basic
import Clearance.Text.Blank

/-!
# Clearance — Toml — Reader

Reads a TOML text.  Every reader takes the characters left and answers what it read with the rest.
-/

namespace Clearance

namespace Toml

abbrev Reader (α : Type) := List Char → Option (α × List Char)

def isBlank (c : Char) : Bool := c == ' ' || c == '\t'

def skipBlanks (cs : List Char) : List Char := cs.dropWhile isBlank

/-- Control characters, which may not stand in texts or comments. -/
def isControl (c : Char) : Bool := (c.toNat < 32 && c != '\t') || c.toNat == 127

/-- Skips a comment, if one starts here. -/
def skipComment? (cs : List Char) : Option (List Char) :=
  match cs with
  | '#' :: rest =>
    let body := rest.takeWhile fun c => c != '\n'
    let body' := if body.getLast? = some '\r' then body.dropLast else body
    if body'.any isControl then none else some (rest.drop body'.length)
  | cs => some cs

/-- Takes the end of a line, or of the text. -/
def lineEnd? (cs : List Char) : Option (List Char) := do
  match ← skipComment? (skipBlanks cs) with
  | [] => some []
  | '\n' :: rest => some rest
  | '\r' :: '\n' :: rest => some rest
  | _ => none

/-- Skips blanks, breaks and comments. -/
def skipLines? (fuel : Nat) (cs : List Char) : Option (List Char) :=
  match fuel with
  | 0 => some cs
  | fuel + 1 => do
    match ← skipComment? (skipBlanks cs) with
    | '\n' :: rest => skipLines? fuel rest
    | '\r' :: '\n' :: rest => skipLines? fuel rest
    | cs => some cs

/-! ### Texts -/

def hexDigit? (c : Char) : Option Nat :=
  if c.isDigit then some (c.toNat - '0'.toNat)
  else if 'a' ≤ c ∧ c ≤ 'f' then some (c.toNat - 'a'.toNat + 10)
  else if 'A' ≤ c ∧ c ≤ 'F' then some (c.toNat - 'A'.toNat + 10)
  else none

/-- Reads the character of `width` hexadecimal digits. -/
def codePoint? (width : Nat) : Reader Char := fun cs => do
  let digits := cs.take width
  if digits.length < width then none
  let n ← digits.foldlM (fun n c => (hexDigit? c).map (n * 16 + ·)) 0
  if h : n.isValidChar then some (Char.ofNatAux n h, cs.drop width) else none

/-- Reads an escape behind its backslash. -/
def escape? : Reader Char
  | 'b' :: rest => some ('\x08', rest)
  | 't' :: rest => some ('\t', rest)
  | 'n' :: rest => some ('\n', rest)
  | 'f' :: rest => some ('\x0c', rest)
  | 'r' :: rest => some ('\r', rest)
  | '"' :: rest => some ('"', rest)
  | '\\' :: rest => some ('\\', rest)
  | 'u' :: rest => codePoint? 4 rest
  | 'U' :: rest => codePoint? 8 rest
  | _ => none

/-- Reads a text on one line behind its double quote. -/
def basicText (acc : List Char) : Nat → Reader String
  | 0, _ => none
  | _ + 1, [] => none
  | fuel + 1, c :: rest =>
    if c == '"' then some (String.ofList acc.reverse, rest)
    else if c == '\\' then do
      let (e, rest) ← escape? rest
      basicText (e :: acc) fuel rest
    else if isControl c then none
    else basicText (c :: acc) fuel rest

/-- Reads a text on one line behind its single quote, without escapes. -/
def literalText (cs : List Char) : Option (String × List Char) :=
  let body := cs.takeWhile fun c => c != '\'' && !isControl c
  match cs.drop body.length with
  | '\'' :: rest => some (String.ofList body, rest)
  | _ => none

/-- The break that may follow an opening of three quotes. -/
def dropFirstBreak : List Char → List Char
  | '\n' :: rest => rest
  | '\r' :: '\n' :: rest => rest
  | cs => cs

/-- Reads a text over lines, up to three quotes of its kind; one or two more belong to the text. -/
def longText (quote : Char) (acc : List Char) : Nat → Reader String
  | 0, _ => none
  | fuel + 1, cs =>
    let quotes := (cs.takeWhile (· == quote)).length
    if 3 ≤ quotes then
      if quotes ≤ 5 then
        some (String.ofList (acc.reverse ++ List.replicate (quotes - 3) quote), cs.drop quotes)
      else none
    else
      match cs with
      | [] => none
      | '\r' :: '\n' :: rest => longText quote ('\n' :: acc) fuel rest
      | c :: rest =>
        if c == '\\' && quote == '"' then
          let after := skipBlanks rest
          match after with
          | '\n' :: _ | '\r' :: '\n' :: _ =>
            longText quote acc fuel (after.dropWhile fun c => isBlank c || c == '\n' || c == '\r')
          | _ => do
            let (e, rest) ← escape? rest
            longText quote (e :: acc) fuel rest
        else if isControl c && c != '\n' then none
        else longText quote (c :: acc) fuel rest

/-- Reads a text in any of the four quotings. -/
def text? : Reader String
  | '"' :: '"' :: '"' :: rest => longText '"' [] (rest.length + 1) (dropFirstBreak rest)
  | '\'' :: '\'' :: '\'' :: rest => longText '\'' [] (rest.length + 1) (dropFirstBreak rest)
  | '"' :: rest => basicText [] (rest.length + 1) rest
  | '\'' :: rest => literalText rest
  | _ => none

/-! ### Keys -/

def isKeyChar (c : Char) : Bool := c.isAlphanum || c == '-' || c == '_'

/-- Reads one part of a key. -/
def keyPart? (cs : List Char) : Option (String × List Char) :=
  match cs with
  | '"' :: rest => basicText [] (rest.length + 1) rest
  | '\'' :: rest => literalText rest
  | cs =>
    let word := cs.takeWhile isKeyChar
    if word.isEmpty then none else some (String.ofList word, cs.drop word.length)

/-- Reads a key, whose parts are joined by points. -/
def key? (fuel : Nat) (cs : List Char) : Option (List String × List Char) :=
  match fuel with
  | 0 => none
  | fuel + 1 => do
    let (part, rest) ← keyPart? (skipBlanks cs)
    match skipBlanks rest with
    | '.' :: rest =>
      let (parts, rest) ← key? fuel rest
      some (part :: parts, rest)
    | rest => some ([part], rest)

/-! ### Numbers and times -/

/-- Drops underscores, each of which has to stand between two characters that satisfy `p`. -/
def withoutUnderscores? (p : Char → Bool) (before : Bool) : List Char → Option (List Char)
  | [] => some []
  | '_' :: rest =>
    if before && rest.head?.any p then withoutUnderscores? p false rest else none
  | c :: rest => (withoutUnderscores? p (p c) rest).map (c :: ·)

/-- The natural that digits of a base stand for. -/
def natural? (base : Nat) (cs : List Char) : Option Nat := do
  let cs ← withoutUnderscores? (fun c => (hexDigit? c).any (· < base)) false cs
  if cs.isEmpty then none
  else cs.foldlM (fun n c => match hexDigit? c with
    | some d => if d < base then some (n * base + d) else none
    | none => none) 0

/-- Decimal digits without a leading zero. -/
def isPlainDecimal : List Char → Bool
  | ['0'] => true
  | '0' :: _ => false
  | cs => allDigits cs

/-- An integer of 64 bits. -/
def int? (cs : List Char) : Option Int := do
  let n : Int ← match cs with
    | '0' :: 'x' :: rest => (natural? 16 rest).map Int.ofNat
    | '0' :: 'o' :: rest => (natural? 8 rest).map Int.ofNat
    | '0' :: 'b' :: rest => (natural? 2 rest).map Int.ofNat
    | cs =>
      let (negative, digits) := splitSign cs
      let digits ← withoutUnderscores? Char.isDigit false digits
      if isPlainDecimal digits then
        some (if negative then -(natOfDigits digits : Int) else natOfDigits digits)
      else none
  if -(Nat.pow 2 63 : Int) ≤ n ∧ n < Nat.pow 2 63 then some n else none

/-- A double: digits, then a fraction or an exponent or both; infinity and not-a-number have names. -/
def double? (cs : List Char) : Option Double := do
  let (negative, unsigned) := splitSign cs
  let sign (d : Double) : Double := if negative then d.negate else d
  if unsigned == "inf".toList then some (sign (.ofFloat (1 / 0)))
  else if unsigned == "nan".toList then some (sign ⟨0x7ff8000000000000⟩)
  else
    let unsigned ← withoutUnderscores? Char.isDigit false unsigned
    let whole := unsigned.takeWhile Char.isDigit
    let rest := unsigned.drop whole.length
    let fractionOk := match rest with
      | '.' :: rest => rest.head?.any Char.isDigit
      | _ => true
    if isPlainDecimal whole && !rest.isEmpty && fractionOk then
      let d ← Double.parse? unsigned
      if d.isFinite then some (sign d) else none
    else none

/-- Splits off exactly `n` digits. -/
def digits? (n : Nat) (cs : List Char) : Option (Nat × List Char) :=
  let ds := cs.take n
  if ds.length = n ∧ ds.all Char.isDigit then some (natOfDigits ds, cs.drop n) else none

def expect? (c : Char) : List Char → Option (List Char)
  | d :: rest => if c = d then some rest else none
  | [] => none

/-- Checks a date and answers what follows it. -/
def date? (cs : List Char) : Option (List Char) := do
  let (y, cs) ← digits? 4 cs
  let (m, cs) ← digits? 2 (← expect? '-' cs)
  let (d, cs) ← digits? 2 (← expect? '-' cs)
  let leap := y % 4 == 0 && (y % 100 != 0 || y % 400 == 0)
  let days := if m = 2 then (if leap then 29 else 28)
    else if m = 4 ∨ m = 6 ∨ m = 9 ∨ m = 11 then 30 else 31
  if 1 ≤ m ∧ m ≤ 12 ∧ 1 ≤ d ∧ d ≤ days then some cs else none

/-- A fraction of a second as it is kept: of at most nine digits, without zeros at its end. -/
def fraction (digits : List Char) : List Char :=
  match Text.dropEndWhile (· == '0') (digits.take 9) with
  | [] => []
  | ds => '.' :: ds

/-- Reads a time of day. -/
def clock? (cs : List Char) : Option (List Char × List Char) := do
  let (h, after) ← digits? 2 cs
  let (m, after) ← digits? 2 (← expect? ':' after)
  let (s, after) ← digits? 2 (← expect? ':' after)
  if 24 ≤ h ∨ 60 ≤ m ∨ 61 ≤ s then none
  match after with
  | '.' :: rest =>
    let ds := rest.takeWhile Char.isDigit
    if ds.isEmpty then none else some (cs.take 8 ++ fraction ds, rest.drop ds.length)
  | rest => some (cs.take 8, rest)

/-- Reads an offset, or nothing where there is none; no offset is negative zero. -/
def offset? : List Char → Option (List Char)
  | [] => some []
  | ['Z'] => some ['Z']
  | c :: rest => do
    if c != '+' && c != '-' then none
    let (h, after) ← digits? 2 rest
    let (m, after) ← digits? 2 (← expect? ':' after)
    if 24 ≤ h ∨ 60 ≤ m ∨ !after.isEmpty then none
    some ((if h = 0 ∧ m = 0 then '+' else c) :: rest)

/-- A date, a time of day, or both with an offset or without, as a text. -/
def moment? (cs : List Char) : Option String := do
  let cs := cs.map fun c => if c == 't' || c == ' ' then 'T' else if c == 'z' then 'Z' else c
  match date? cs with
  | some [] => some (String.ofList cs)
  | some ('T' :: rest) => do
    let (time, rest) ← clock? rest
    let offset ← offset? rest
    some (String.ofList (cs.take 10 ++ 'T' :: time ++ offset))
  | _ =>
    match clock? cs with
    | some (time, []) => some (String.ofList time)
    | _ => none

/-- The characters of a number, a boolean or a time. -/
def isWordChar (c : Char) : Bool := c.isAlphanum || "+-_.:".contains c

/-- Reads a value that has no quotes or brackets. -/
def word? (cs : List Char) : Option (Value × List Char) := do
  let w := cs.takeWhile isWordChar
  let rest := cs.drop w.length
  -- a date may be joined to a time by a space
  let (w, rest) := match date? w, rest with
    | some [], ' ' :: a :: more =>
      if a.isDigit then
        let v := (a :: more).takeWhile isWordChar
        (w ++ ' ' :: v, (a :: more).drop v.length)
      else (w, rest)
    | _, _ => (w, rest)
  let v ←
    if w == "true".toList then some (Value.bool true)
    else if w == "false".toList then some (Value.bool false)
    else
      match int? w, double? w, moment? w with
      | some n, _, _ => some (Value.int n)
      | none, some d, _ => some (Value.double d)
      | none, none, some s => some (Value.text s)
      | none, none, none => none
  some (v, rest)

/-! ### Values -/

mutual

def value? (fuel : Nat) (cs : List Char) : Option (Value × List Char) :=
  match fuel with
  | 0 => none
  | fuel + 1 =>
    match cs with
    | '"' :: _ | '\'' :: _ => (text? cs).map fun (s, rest) => (.text s, rest)
    | '[' :: rest => items? fuel [] rest
    | '\x7b' :: rest =>
      match skipBlanks rest with
      | '\x7d' :: rest => some (.table .braced [], rest)
      | rest => fields? fuel [] rest
    | cs => word? cs

/-- Reads the items of an array and its end. -/
def items? (fuel : Nat) (acc : List Value) (cs : List Char) : Option (Value × List Char) :=
  match fuel with
  | 0 => none
  | fuel + 1 => do
    match ← skipLines? cs.length cs with
    | ']' :: rest => some (.array acc.reverse, rest)
    | cs =>
      let (v, rest) ← value? fuel cs
      match ← skipLines? rest.length rest with
      | ',' :: rest => items? fuel (v :: acc) rest
      | ']' :: rest => some (.array (v :: acc).reverse, rest)
      | _ => none

/-- Reads the fields of a table in braces, and its end. -/
def fields? (fuel : Nat) (acc : Entries) (cs : List Char) : Option (Value × List Char) :=
  match fuel with
  | 0 => none
  | fuel + 1 => do
    let (path, rest) ← key? cs.length cs
    let rest ← expect? '=' rest
    let (v, rest) ← value? fuel (skipBlanks rest)
    let acc ← addValue? acc path v
    match skipBlanks rest with
    | ',' :: rest => fields? fuel acc rest
    | '\x7d' :: rest => some (.table .braced acc, rest)
    | _ => none

end

/-! ### Documents -/

/-- Reads line after line into the document; `here` is the path of the table they belong to. -/
def lines? (fuel : Nat) (doc : Entries) (here : List String) (cs : List Char) : Option Entries :=
  match fuel with
  | 0 => none
  | fuel + 1 =>
    match skipBlanks cs with
    | [] => some doc
    | '[' :: '[' :: rest => do
      let (path, rest) ← key? rest.length rest
      let rest ← expect? ']' rest
      let rest ← lineEnd? (← expect? ']' rest)
      lines? fuel (← openNext? doc path) path rest
    | '[' :: rest => do
      let (path, rest) ← key? rest.length rest
      let rest ← lineEnd? (← expect? ']' rest)
      lines? fuel (← openTable? doc path) path rest
    | cs =>
      if cs.head?.any fun c => c == '\n' || c == '#' || c == '\r' then do
        lines? fuel doc here (← lineEnd? cs)
      else do
        let (path, rest) ← key? cs.length cs
        let rest ← expect? '=' rest
        let (v, rest) ← value? (rest.length + 1) (skipBlanks rest)
        let rest ← lineEnd? rest
        let doc ← atPath? doc here fun t => addValue? t path v
        lines? fuel doc here rest

/-- The table of a TOML text. -/
def read? (s : String) : Option Entries :=
  let cs := match s.toList with
    | c :: rest => if c == '\uFEFF' then rest else c :: rest
    | [] => []
  lines? (cs.length + 1) [] [] cs

end Toml

end Clearance
