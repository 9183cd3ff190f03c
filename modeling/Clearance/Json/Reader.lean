import Clearance.Json.Document

/-!
# Clearance — Json — Reader

Reads JSON text into a `Document`.  A number without point or exponent is an integer as long as it
fits 64 bits; any other is a double built from at most nineteen or twenty leading digits and one
scaling by a power of ten.  `Json.parse?` reads a whole text as one value, nested at most 127 deep.
-/

namespace Clearance

namespace Json

/-- A document with the text behind it; `none` where the text broke off. -/
structure Reading where
  document : Document
  rest : Option (List Char)

def isSpace (c : Char) : Bool := c == ' ' || c == '\n' || c == '\t' || c == '\r'

def skipSpace (cs : List Char) : List Char := cs.dropWhile isSpace

/-- The deepest nesting a text may have to be read as a value. -/
def maxDepth : Nat := 127

/-! ### Numbers -/

def digitValue (c : Char) : Nat := c.toNat - '0'.toNat

def u64Max : Nat := Nat.pow 2 64 - 1

/-- Takes digits into a significand until it would pass 64 bits.  Answers the significand, how many
digits it took, and the rest, which starts with a digit when the significand is full. -/
def takeDigits (significand taken : Nat) : List Char → Nat × Nat × List Char
  | [] => (significand, taken, [])
  | c :: rest =>
    if c.isDigit then
      let next := significand * 10 + digitValue c
      if next ≤ u64Max then takeDigits next (taken + 1) rest else (significand, taken, c :: rest)
    else (significand, taken, c :: rest)

/-- The power of ten as a double; exact up to `10^22`, rounded beyond. -/
def powerOfTen (n : Nat) : Float := Float.ofScientific 1 false n

/-- Scales by a negative power, at most `10^308` at a time. -/
def scaleDown (f : Float) (n : Nat) : Nat → Float
  | 0 => f / powerOfTen n
  | fuel + 1 =>
    if n ≤ 308 then f / powerOfTen n
    else if f == 0 then f
    else scaleDown (f / powerOfTen 308) (n - 308) fuel

/-- `significand · 10^exponent` as a double, `none` when it is out of range. -/
def scale? (significand : Nat) (exponent : Int) : Option Float :=
  let f := Float.ofNat significand
  if 0 ≤ exponent then
    if 308 < exponent then (if significand = 0 then some f else none)
    else
      let r := f * powerOfTen exponent.toNat
      if r.isInf then none else some r
  else some (scaleDown f exponent.natAbs 8)

def signed (negative : Bool) (f : Float) : Document :=
  .double (.ofFloat (if negative then -f else f))

/-- An exponent this large puts any significand but zero out of range. -/
def exponentLimit : Nat := Nat.pow 2 31 - 1

/-- Reads the digits of an exponent behind its `e`. -/
def readExponent (negative : Bool) (significand : Nat) (start : Int) (cs : List Char) : Reading :=
  let (down, cs) : Bool × List Char := match cs with
    | '+' :: rest => (false, rest)
    | '-' :: rest => (true, rest)
    | _ => (false, cs)
  let digits := cs.takeWhile Char.isDigit
  let rest := cs.dropWhile Char.isDigit
  if digits.isEmpty then ⟨.broken, none⟩
  else
    let e := digits.foldl (fun n c => min (n * 10 + digitValue c) (exponentLimit + 1)) 0
    if exponentLimit < e then
      if significand ≠ 0 ∧ !down then ⟨.valueless, some rest⟩
      else ⟨signed negative 0, some rest⟩
    else
      match scale? significand (if down then start - e else start + e) with
      | some f => ⟨signed negative f, some rest⟩
      | none => ⟨.valueless, some rest⟩

/-- Reads what follows the digits of a number that is already known to be a double. -/
def readScaled (negative : Bool) (significand : Nat) (exponent : Int) (cs : List Char) : Reading :=
  match cs with
  | 'e' :: rest => readExponent negative significand exponent rest
  | 'E' :: rest => readExponent negative significand exponent rest
  | _ =>
    match scale? significand exponent with
    | some f => ⟨signed negative f, some cs⟩
    | none => ⟨.valueless, some cs⟩

/-- Reads the digits behind a decimal point. -/
def readDecimals (negative : Bool) (significand : Nat) (exponent : Int) (cs : List Char) : Reading :=
  let (s, taken, rest) := takeDigits significand 0 cs
  let more := rest.dropWhile Char.isDigit
  if taken = 0 ∧ more.length = rest.length then ⟨.broken, none⟩
  else readScaled negative s (exponent - taken) more

/-- Reads a number behind its sign. -/
def readNumber (negative : Bool) (cs : List Char) : Reading :=
  match cs with
  | '0' :: c :: rest =>
    if c.isDigit then ⟨.broken, none⟩ else readTail 0 (c :: rest)
  | '0' :: [] => readTail 0 []
  | c :: _ =>
    if c.isDigit then
      let (s, _, rest) := takeDigits 0 0 cs
      let extra := rest.takeWhile Char.isDigit
      if extra.isEmpty then readTail s rest
      else
        let rest := rest.dropWhile Char.isDigit
        match rest with
        | '.' :: rest => readDecimals negative s extra.length rest
        | _ => readScaled negative s extra.length rest
    else ⟨.broken, none⟩
  | [] => ⟨.broken, none⟩
where
  /-- Reads what follows digits that fit 64 bits. -/
  readTail (significand : Nat) (cs : List Char) : Reading :=
    match cs with
    | '.' :: rest => readDecimals negative significand 0 rest
    | 'e' :: rest => readExponent negative significand 0 rest
    | 'E' :: rest => readExponent negative significand 0 rest
    | _ =>
      if !negative then ⟨.int significand, some cs⟩
      else if significand = 0 ∨ Nat.pow 2 63 < significand then
        ⟨signed true (Float.ofNat significand), some cs⟩
      else ⟨.int (-significand), some cs⟩

/-! ### Strings -/

def hexValue? (c : Char) : Option Nat :=
  if '0' ≤ c ∧ c ≤ '9' then some (c.toNat - '0'.toNat)
  else if 'a' ≤ c ∧ c ≤ 'f' then some (c.toNat - 'a'.toNat + 10)
  else if 'A' ≤ c ∧ c ≤ 'F' then some (c.toNat - 'A'.toNat + 10)
  else none

/-- The value of four hexadecimal digits. -/
def hexUnit? : List Char → Option (Nat × List Char)
  | a :: b :: c :: d :: rest => do
    let a ← hexValue? a
    let b ← hexValue? b
    let c ← hexValue? c
    let d ← hexValue? d
    some (((a * 16 + b) * 16 + c) * 16 + d, rest)
  | _ => none

/-- The character a one-letter escape stands for. -/
def escape? : Char → Option Char
  | '"' => some '"'
  | '\\' => some '\\'
  | '/' => some '/'
  | 'b' => some '\x08'
  | 'f' => some '\x0c'
  | 'n' => some '\n'
  | 'r' => some '\r'
  | 't' => some '\t'
  | _ => none

/-- A string's characters with the text behind its closing quote.  `sound` is false when an escape
is half of a surrogate pair. -/
structure StringReading where
  chars : List Char
  sound : Bool
  rest : List Char

/-- Reads a string behind its opening quote; `none` when it is not a string. -/
def readChars (acc : List Char) (sound : Bool) : Nat → List Char → Option StringReading
  | 0, _ => none
  | _ + 1, [] => none
  | fuel + 1, '"' :: rest => let _ := fuel; some ⟨acc.reverse, sound, rest⟩
  | fuel + 1, '\\' :: 'u' :: rest =>
    match hexUnit? rest with
    | none => none
    | some (unit, rest) =>
      if 0xD800 ≤ unit ∧ unit < 0xDC00 then
        match rest with
        | '\\' :: 'u' :: low =>
          match hexUnit? low with
          | none => none
          | some (second, after) =>
            if 0xDC00 ≤ second ∧ second < 0xE000 then
              let code := 0x10000 + (unit - 0xD800) * 0x400 + (second - 0xDC00)
              readChars (Char.ofNat code :: acc) sound fuel after
            else readChars acc false fuel rest
        | _ => readChars acc false fuel rest
      else if 0xDC00 ≤ unit ∧ unit < 0xE000 then readChars acc false fuel rest
      else readChars (Char.ofNat unit :: acc) sound fuel rest
  | fuel + 1, '\\' :: c :: rest =>
    match escape? c with
    | some e => readChars (e :: acc) sound fuel rest
    | none => none
  | _ + 1, ['\\'] => none
  | fuel + 1, c :: rest =>
    if c.toNat < 32 then none else readChars (c :: acc) sound fuel rest

def readString? (cs : List Char) : Option StringReading := readChars [] true (cs.length + 1) cs

/-! ### Values -/

/-- Reads a fixed word. -/
def readWord (word : List Char) (document : Document) (cs : List Char) : Reading :=
  if word.isPrefixOf cs then ⟨document, some (cs.drop word.length)⟩ else ⟨.broken, none⟩

mutual

/-- Reads one value.  A character of the text costs at most three of `fuel`. -/
def readValue (fuel : Nat) (cs : List Char) : Reading :=
  match fuel with
  | 0 => ⟨.broken, none⟩
  | fuel + 1 =>
    match skipSpace cs with
    | 'n' :: rest => readWord ['u', 'l', 'l'] .null rest
    | 't' :: rest => readWord ['r', 'u', 'e'] (.bool true) rest
    | 'f' :: rest => readWord ['a', 'l', 's', 'e'] (.bool false) rest
    | '"' :: rest =>
      match readString? rest with
      | none => ⟨.broken, none⟩
      | some s => ⟨if s.sound then .str (String.ofList s.chars) else .valueless, some s.rest⟩
    | '[' :: rest => readItems fuel [] rest
    | '{' :: rest => readFields fuel [] rest
    | '-' :: rest => readNumber true rest
    | c :: rest => if c.isDigit then readNumber false (c :: rest) else ⟨.broken, none⟩
    | [] => ⟨.broken, none⟩

/-- Reads the items behind `[` or behind an item. -/
def readItems (fuel : Nat) (acc : List Document) (cs : List Char) : Reading :=
  match fuel with
  | 0 => ⟨.seq acc.reverse .cut, none⟩
  | fuel + 1 =>
    match skipSpace cs with
    | ']' :: rest => ⟨.seq acc.reverse .closed, some rest⟩
    | ',' :: rest => if acc.isEmpty then ⟨.seq [] .cut, none⟩ else readItem fuel acc rest
    | cs => if acc.isEmpty then readItem fuel acc cs else ⟨.seq acc.reverse .cut, none⟩

/-- Reads one item and what follows it. -/
def readItem (fuel : Nat) (acc : List Document) (cs : List Char) : Reading :=
  match fuel with
  | 0 => ⟨.seq acc.reverse .cut, none⟩
  | fuel + 1 =>
    match skipSpace cs with
    | ']' :: _ => ⟨.seq acc.reverse .cut, none⟩
    | [] => ⟨.seq acc.reverse .cut, none⟩
    | cs =>
      match readValue fuel cs with
      | ⟨v, some rest⟩ => readItems fuel (v :: acc) rest
      | ⟨v, none⟩ => ⟨.seq (v :: acc).reverse .cut, none⟩

/-- Reads the fields behind an opening brace or behind a field. -/
def readFields (fuel : Nat) (acc : List (String × Document)) (cs : List Char) : Reading :=
  match fuel with
  | 0 => ⟨.map acc.reverse .cut, none⟩
  | fuel + 1 =>
    match skipSpace cs with
    | '}' :: rest => ⟨.map acc.reverse .closed, some rest⟩
    | ',' :: rest => if acc.isEmpty then ⟨.map [] .cut, none⟩ else readField fuel acc rest
    | cs => if acc.isEmpty then readField fuel acc cs else ⟨.map acc.reverse .cut, none⟩

/-- Reads one field and what follows it. -/
def readField (fuel : Nat) (acc : List (String × Document)) (cs : List Char) : Reading :=
  match fuel with
  | 0 => ⟨.map acc.reverse .cut, none⟩
  | fuel + 1 =>
    match skipSpace cs with
    | '"' :: rest =>
      match readString? rest with
      | some ⟨key, true, rest⟩ =>
        match skipSpace rest with
        | ':' :: rest =>
          match readValue fuel rest with
          | ⟨v, some rest⟩ => readFields fuel ((String.ofList key, v) :: acc) rest
          | ⟨v, none⟩ => ⟨.map ((String.ofList key, v) :: acc).reverse .cut, none⟩
        | _ => ⟨.map ((String.ofList key, .broken) :: acc).reverse .cut, none⟩
      | _ => ⟨.map acc.reverse .cut, none⟩
    | _ => ⟨.map acc.reverse .cut, none⟩

end

/-- Reads the value a text starts with. -/
def read (s : String) : Reading :=
  let cs := s.toList
  readValue (3 * cs.length + 3) cs

/-- A whole text as one value. -/
def parse? (s : String) : Option Json :=
  match read s with
  | ⟨document, some rest⟩ =>
    if (skipSpace rest).isEmpty then document.toJson? maxDepth else none
  | ⟨_, none⟩ => none

end Json

end Clearance
