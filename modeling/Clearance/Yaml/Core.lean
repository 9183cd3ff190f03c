import Clearance.Context
import Clearance.Number.Reading
import Clearance.Yaml.Node

/-!
# Clearance — Yaml — The core schema

What a plain scalar stands for: null, a boolean, a number, or its own text.  Integers are decimal, or
hexadecimal, octal or binary behind `0x`, `0o` and `0b`; a decimal with a leading zero is a text.
-/

namespace Clearance

namespace Yaml

inductive Core where
  | null
  | bool (b : Bool)
  | int (n : Int)
  | double (d : Double)
  | text (s : String)
  deriving DecidableEq, Repr

namespace Core

def isNullWord (s : String) : Bool := s == "null" || s == "Null" || s == "NULL" || s == "~"

def boolWord? (s : String) : Option Bool :=
  if s == "true" || s == "True" || s == "TRUE" then some true
  else if s == "false" || s == "False" || s == "FALSE" then some false
  else none

/-- Whether a text is digits behind a leading zero, which make no number. -/
def isZeroPadded (cs : List Char) : Bool :=
  match (match cs with
    | '-' :: rest => rest
    | '+' :: rest => rest
    | cs => cs) with
  | '0' :: d :: rest => (d :: rest).all Char.isDigit
  | _ => false

/-- The natural that digits of a base stand for. -/
def natOfBase? (base : Nat) (cs : List Char) : Option Nat :=
  if cs.isEmpty then none
  else cs.foldlM (fun n c =>
    match hexValue? c with
    | some d => if d < base then some (n * base + d) else none
    | none => none) 0

/-- The natural of a text that starts with the mark of its base, or has none. -/
def natural? (cs : List Char) : Option Nat :=
  match cs with
  | '0' :: 'x' :: rest => natOfBase? 16 rest
  | '0' :: 'o' :: rest => natOfBase? 8 rest
  | '0' :: 'b' :: rest => natOfBase? 2 rest
  | cs => if isZeroPadded cs then none else natOfBase? 10 cs

/-- An integer of at most 128 bits; a larger one is read as a double. -/
def int? (cs : List Char) : Option Int :=
  match cs with
  | '-' :: rest =>
    (natural? rest).bind fun n => if n ≤ Nat.pow 2 127 then some (-(n : Int)) else none
  | '+' :: rest => (natural? rest).bind fun n => if n < Nat.pow 2 128 then some (n : Int) else none
  | cs => (natural? cs).bind fun n => if n < Nat.pow 2 128 then some (n : Int) else none

/-- Infinity without its sign. -/
def isInfinityWord (s : String) : Bool := s == ".inf" || s == ".Inf" || s == ".INF"

def infinity : Double := .ofFloat (1 / 0)

def notANumber : Double := ⟨0x7ff8000000000000⟩

def double? (s : String) : Option Double :=
  let cs := s.toList
  let unsigned := match cs with
    | '+' :: rest => rest
    | cs => cs
  if cs.head? = some '+' ∧ (unsigned.head? = some '+' ∨ unsigned.head? = some '-') then none
  else if isInfinityWord (String.ofList unsigned) then some infinity
  else if cs.head? = some '-' ∧ isInfinityWord (String.ofList cs.tail) then some infinity.negate
  else if s == ".nan" || s == ".NaN" || s == ".NAN" then some notANumber
  else (Double.parse? unsigned).filter Double.isFinite

/-- What a plain scalar stands for. -/
def ofPlain (s : String) : Core :=
  if s = "" ∨ isNullWord s then .null
  else
    match boolWord? s with
    | some b => .bool b
    | none =>
      match int? s.toList with
      | some n => .int n
      | none =>
        if isZeroPadded s.toList then .text s
        else
          match double? s with
          | some d => .double d
          | none => .text s

/-- What a scalar stands for that has a tag; a tag of one of the core types has to fit the text. -/
def ofTagged? (tag s : String) : Option Core :=
  match tag with
  | "tag:yaml.org,2002:bool" => (boolWord? s).map .bool
  | "tag:yaml.org,2002:int" => (int? s.toList).map .int
  | "tag:yaml.org,2002:float" => (double? s).map .double
  | "tag:yaml.org,2002:null" => if isNullWord s then some .null else none
  | tag => if tag.startsWith "!" then none else some (.text s)

/-- What a scalar stands for. -/
def ofScalar? (s : String) (style : ScalarStyle) (tag : Option String) : Option Core :=
  match tag with
  | some tag => ofTagged? tag s
  | none => if style = .plain then some (ofPlain s) else some (.text s)

end Core

/-! ### Loading -/

/-- Loading a value follows aliases; it may follow only so many, which the state counts down. -/
abbrev Load := StateT Nat Option

/-- How deep a loaded value may nest. -/
def maxDepth : Nat := 128

/-- How many aliases may be followed in loading a document. -/
def Tree.aliasLimit (t : Tree) : Nat := t.events * 100

namespace Tree

/-- A node itself, or the node an alias names. -/
def resolve (t : Tree) (n : Node) : Load Node := do
  match n with
  | .alias k =>
    match ← get with
    | 0 => failure
    | left + 1 =>
      set left
      match t.anchors.lookup k with
      | some (.alias _) => failure
      | some n => pure n
      | none => failure
  | n => pure n

/-- A scalar as it is written. -/
def string (t : Tree) (n : Node) : Load String := do
  match ← t.resolve n with
  | .scalar text _ _ => pure text
  | _ => failure

/-- Whether a collection has a tag of the text's own. -/
def isLocalTag (tag : Option String) : Bool := tag.any (·.startsWith "!")

/-- A number that JSON has; one that it has not becomes `null`, or is out of range. -/
def jsonOfCore? : Core → Option Json
  | .null => some .null
  | .bool b => some (.bool b)
  | .int n => if -(Nat.pow 2 63 : Int) ≤ n ∧ n < Nat.pow 2 64 then some (.int n) else none
  | .double d => some (if d.isFinite then .double d else .null)
  | .text s => some (.str s)

/-- A value of any type, nested no deeper than `depth`. -/
def json (t : Tree) (depth : Nat) (n : Node) : Load Json := do
  match ← t.resolve n with
  | .scalar text style tag =>
    match (Core.ofScalar? text style tag).bind jsonOfCore? with
    | some j => pure j
    | none => failure
  | .seq items tag =>
    if isLocalTag tag then failure
    match depth with
    | 0 => failure
    | depth + 1 => return .arr (← items.mapM (t.json depth))
  | .map entries tag =>
    if isLocalTag tag then failure
    match depth with
    | 0 => failure
    | depth + 1 =>
      let fields ← entries.mapM fun e => do
        let k ← t.string e.1
        let v ← t.json depth e.2
        pure (k, v)
      return .obj (sortFields fields)
  | .alias _ => failure

/-- The items of a list; nothing at all is an empty one. -/
def items (t : Tree) (n : Node) : Load (List Node) := do
  match ← t.resolve n with
  | .seq items _ => pure items
  | .scalar "" .plain _ => pure []
  | _ => failure

/-- The fields of a record by name, leaving out those it does not have.  No field may be there
twice. -/
def fields (t : Tree) (names : List String) (n : Node) : Load (List (String × Node)) := do
  match ← t.resolve n with
  | .map entries _ =>
    let named ← entries.mapM fun e => do
      let k ← t.string e.1
      pure (k, e.2)
    let known := named.filter fun e => names.contains e.1
    if (known.map Prod.fst).eraseDups.length = known.length then pure known else failure
  | _ => failure

end Tree

end Yaml

end Clearance
