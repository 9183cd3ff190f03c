import Clearance.Json.Value

/-!
# Clearance — Json — Documents

A `Document` is what a JSON text says, in reading order and as far as it can be read: fields keep
their order and their repetitions, and where the text stops being JSON the document is `broken` or
its list of parts is `cut`.  A reader of a typed value walks a document front to back, so a wrong
type early in the text is met before a break later in it.
-/

namespace Clearance

/-- How a list of parts ends: with its bracket, or where the text broke off. -/
inductive Ending where
  | closed
  | cut
  deriving DecidableEq, Repr, Inhabited

inductive Document where
  | null
  | bool (b : Bool)
  | int (n : Int)
  | double (d : Double)
  | str (s : String)
  | seq (items : List Document) (ending : Ending)
  | map (fields : List (String × Document)) (ending : Ending)
  /-- Well-formed text without a value: a number out of range, or half of a surrogate pair. -/
  | valueless
  /-- No value starts here. -/
  | broken
  deriving Repr, Inhabited

namespace Document

mutual

def ofJson : Json → Document
  | .null => .null
  | .bool b => .bool b
  | .int n => .int n
  | .double d => .double d
  | .str s => .str s
  | .arr items => .seq (ofItems items) .closed
  | .obj fields => .map (ofFields fields) .closed

def ofItems : List Json → List Document
  | [] => []
  | x :: rest => ofJson x :: ofItems rest

def ofFields : List (String × Json) → List (String × Document)
  | [] => []
  | (k, v) :: rest => (k, ofJson v) :: ofFields rest

end

mutual

/-- Whether the text breaks off inside the document. -/
def isCut : Document → Bool
  | .seq items e => e == .cut || anyCut items
  | .map fields e => e == .cut || anyFieldCut fields
  | .broken => true
  | _ => false

def anyCut : List Document → Bool
  | [] => false
  | x :: rest => isCut x || anyCut rest

def anyFieldCut : List (String × Document) → Bool
  | [] => false
  | (_, v) :: rest => isCut v || anyFieldCut rest

end

mutual

/-- The value of a document, if it has one and nests no deeper than `depth`.  Fields are sorted by
key, and of two of the same name the later stays. -/
def toJson? (depth : Nat) : Document → Option Json
  | .null => some .null
  | .bool b => some (.bool b)
  | .int n => some (.int n)
  | .double d => some (.double d)
  | .str s => some (.str s)
  | .seq items .closed => if depth = 0 then none else (toItems? (depth - 1) items).map .arr
  | .map fields .closed =>
    if depth = 0 then none else (toFields? (depth - 1) fields).map fun fs => .obj (sortFields fs)
  | .seq _ .cut => none
  | .map _ .cut => none
  | .valueless => none
  | .broken => none

def toItems? (depth : Nat) : List Document → Option (List Json)
  | [] => some []
  | x :: rest => do
    let v ← toJson? depth x
    let vs ← toItems? depth rest
    some (v :: vs)

def toFields? (depth : Nat) : List (String × Document) → Option (List (String × Json))
  | [] => some []
  | (k, x) :: rest => do
    let v ← toJson? depth x
    let vs ← toFields? depth rest
    some ((k, v) :: vs)

end

mutual

/-- How deep a document nests. -/
def depth : Document → Nat
  | .seq items _ => depthItems items + 1
  | .map fields _ => depthFields fields + 1
  | _ => 0

def depthItems : List Document → Nat
  | [] => 0
  | x :: rest => max (depth x) (depthItems rest)

def depthFields : List (String × Document) → Nat
  | [] => 0
  | (_, v) :: rest => max (depth v) (depthFields rest)

end

end Document

end Clearance
