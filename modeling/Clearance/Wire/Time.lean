import Clearance.Text.Blank
import Clearance.Wire.Decoder

/-!
# Clearance — Wire — Times

The times a record may carry.  They are checked to be dates with a time and an offset, and not kept.
-/

namespace Clearance

namespace Time

def isLeap (y : Nat) : Bool := y % 4 == 0 && (y % 100 != 0 || y % 400 == 0)

def daysIn (y m : Nat) : Nat :=
  if m = 2 then (if isLeap y then 29 else 28)
  else if m = 4 ∨ m = 6 ∨ m = 9 ∨ m = 11 then 30
  else 31

def skipBlanks (cs : List Char) : List Char := cs.dropWhile Text.isBlank

/-- A number of at most `width` digits, possibly behind blanks. -/
def number? (width : Nat) (cs : List Char) : Option (Nat × List Char) :=
  let cs := skipBlanks cs
  let ds := (cs.take width).takeWhile Char.isDigit
  if ds.isEmpty then none
  else some (ds.foldl (fun n c => n * 10 + (c.toNat - '0'.toNat)) 0, cs.drop ds.length)

/-- A character, possibly behind blanks. -/
def expect? (c : Char) (cs : List Char) : Option (List Char) :=
  match skipBlanks cs with
  | d :: rest => if c = d then some rest else none
  | [] => none

/-- Two digits. -/
def pair? : List Char → Option (Nat × List Char)
  | a :: b :: rest =>
    if a.isDigit && b.isDigit then
      some ((a.toNat - '0'.toNat) * 10 + (b.toNat - '0'.toNat), rest)
    else none
  | _ => none

/-- An offset from universal time: a name of that time, or a sign with hours and minutes. -/
def isOffset (cs : List Char) : Bool :=
  match skipBlanks cs with
  | [z] => z == 'Z' || z == 'z'
  | [u, t, c] => (u == 'U' || u == 'u') && (t == 'T' || t == 't') && (c == 'C' || c == 'c')
  | sign :: rest =>
    (sign == '+' || sign == '-' || sign == '−') &&
      match pair? rest with
      | some (h, rest) =>
        match pair? (rest.dropWhile fun c => c == ':' || Text.isBlank c) with
        | some (m, []) => h < 24 && m < 60
        | _ => false
      | none => false
  | [] => false

/-- Drops a fraction of a second. -/
def dropFraction (cs : List Char) : List Char :=
  match cs with
  | '.' :: c :: rest => if c.isDigit then rest.dropWhile Char.isDigit else cs
  | _ => cs

/-- Whether a text is a date, a time and an offset. -/
def isTime (s : String) : Bool :=
  (do
    let (y, cs) ← number? 4 s.toList
    let (m, cs) ← number? 2 (← expect? '-' cs)
    let (d, cs) ← number? 2 (← expect? '-' cs)
    let cs ← match cs with
      | 'T' :: rest | 't' :: rest | ' ' :: rest => some rest
      | _ => none
    let (h, cs) ← number? 2 cs
    let (mi, cs) ← number? 2 (← expect? ':' cs)
    let (sec, cs) ← number? 2 (← expect? ':' cs)
    some (1 ≤ m && m ≤ 12 && 1 ≤ d && d ≤ daysIn y m && h < 24 && mi < 60 && sec ≤ 60 &&
      isOffset (dropFraction cs))).getD false

end Time

/-- A time, of which nothing is kept. -/
def Decoder.time : Decoder Unit := fun _ d =>
  match d with
  | .str s =>
    if Time.isTime s then .ok ()
    else Decoder.fail (.badTime "input contains invalid characters")
  | d => Decoder.unexpected "an RFC 3339 formatted date and time string" d

end Clearance
