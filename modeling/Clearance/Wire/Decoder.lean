import Clearance.Context
import Clearance.Json.Document
import Clearance.Json.Writer
import Clearance.Text.Quoted

/-!
# Clearance — Wire — Decoders

Reading typed values off documents.  A decoder walks its document front to back and answers the
first thing that does not fit.  `record` reads a structure: from an object, whose fields may come in
any order and whose unknown fields are skipped, or from an array of the fields in their order.

A document from a value is complete.  A document from a text may break off, and may nest only so
deep: `Source.text` carries how many levels are left.
-/

namespace Clearance

/-- What stands in a document where something else was wanted. -/
inductive Found where
  | null
  | bool (b : Bool)
  | int (n : Int)
  | double (d : Double)
  | str (s : String)
  | seq
  | map
  deriving DecidableEq, Repr

namespace Found

def text : Found → String
  | .null => "null"
  | .bool b => "boolean `" ++ (if b then "true" else "false") ++ "`"
  | .int n => "integer `" ++ toString n ++ "`"
  | .double d => "floating point `" ++ Json.doubleText d ++ "`"
  | .str s => "string " ++ Text.quoted s
  | .seq => "sequence"
  | .map => "map"

end Found

/-- Why a document is not a value of a type. -/
inductive Mismatch where
  | wrongType (found : Found) (wanted : String)
  | outOfRange (found : Found) (wanted : String)
  | missing (field : String)
  | duplicate (field : String)
  | unknownVariant (name : String) (allowed : List String)
  | tooShort (length : Nat) (wanted : String)
  | tooLong (length : Nat)
  | noForm (type : String)
  | badTime (reason : String)
  /-- The text is no JSON, or nests too deep. -/
  | unreadable
  deriving DecidableEq, Repr

/-- A step into a document: to a field of an object, or to an item of an array. -/
inductive Step where
  | field (name : String)
  | item (index : Nat)
  deriving DecidableEq, Repr

/-- A step that is not the first one. -/
def Step.text : Step → String
  | .field name => "." ++ name
  | .item n => "[" ++ toString n ++ "]"

/-- The steps as a message shows them; the first name has no point in front. -/
def stepsText : List Step → String
  | .field name :: rest => name ++ String.join (rest.map Step.text)
  | steps => String.join (steps.map Step.text)

/-- A mismatch with the steps that lead to it. -/
structure DecodeError where
  path : List Step
  mismatch : Mismatch
  deriving DecidableEq, Repr

/-- The alternatives of a variant, each in backticks. -/
def alternatives : List String → String
  | [] => "there are no variants"
  | [a] => "`" ++ a ++ "`"
  | [a, b] => "`" ++ a ++ "` or `" ++ b ++ "`"
  | names => "one of " ++ String.intercalate ", " (names.map fun n => "`" ++ n ++ "`")

namespace Mismatch

def message : Mismatch → String
  | .wrongType found wanted => "invalid type: " ++ found.text ++ ", expected " ++ wanted
  | .outOfRange found wanted => "invalid value: " ++ found.text ++ ", expected " ++ wanted
  | .missing field => "missing field `" ++ field ++ "`"
  | .duplicate field => "duplicate field `" ++ field ++ "`"
  | .unknownVariant name allowed => "unknown variant `" ++ name ++ "`, expected " ++ alternatives allowed
  | .tooShort length wanted => "invalid length " ++ toString length ++ ", expected " ++ wanted
  | .tooLong length =>
    "invalid length " ++ toString length ++ ", expected fewer elements in array"
  | .noForm type => "data did not match any variant of untagged enum " ++ type
  | .badTime reason => reason
  | .unreadable => "expected value"

end Mismatch

namespace DecodeError

/-- The message of a value's mismatch, which does not say where it is. -/
def message (e : DecodeError) : String := e.mismatch.message

/-- The message with the path in front, where there is one. -/
def locatedMessage (e : DecodeError) : String :=
  if e.path.isEmpty then e.message else stepsText e.path ++ ": " ++ e.message

/-- The error as seen from outside the part it arose in. -/
def under (step : Step) (e : DecodeError) : DecodeError := { e with path := step :: e.path }

end DecodeError

/-- Where a document comes from: a complete value, or a text with so many levels left to nest. -/
inductive Source where
  | value
  | text (room : Nat)
  deriving DecidableEq, Repr

abbrev Decoder (α : Type) := Source → Document → Except DecodeError α

namespace Decoder

def fail {α : Type} (m : Mismatch) : Except DecodeError α := .error ⟨[], m⟩

/-- Fails on a document that should have been `wanted`. -/
def unexpected {α : Type} (wanted : String) : Document → Except DecodeError α
  | .null => fail (.wrongType .null wanted)
  | .bool b => fail (.wrongType (.bool b) wanted)
  | .int n => fail (.wrongType (.int n) wanted)
  | .double d => fail (.wrongType (.double d) wanted)
  | .str s => fail (.wrongType (.str s) wanted)
  | .seq _ _ => fail (.wrongType .seq wanted)
  | .map _ _ => fail (.wrongType .map wanted)
  | .valueless | .broken => fail .unreadable

def string : Decoder String := fun _ d =>
  match d with
  | .str s => .ok s
  | d => unexpected "a string" d

def boolean : Decoder Bool := fun _ d =>
  match d with
  | .bool b => .ok b
  | d => unexpected "a boolean" d

/-- A natural below `2^64`; `wanted` names the type of the number. -/
def natural (wanted : String) : Decoder Nat := fun _ d =>
  match d with
  | .int n =>
    if n < 0 then fail (.outOfRange (.int n) wanted)
    else .ok n.toNat
  | d => unexpected wanted d

/-- A number, as a double. -/
def number : Decoder Double := fun _ d =>
  match d with
  | .int n => .ok (.ofFloat (Float.ofInt n))
  | .double x => .ok x
  | d => unexpected "f64" d

/-- Any value. -/
def value : Decoder Json := fun src d =>
  let room := match src with
    | .value => d.depth
    | .text room => room
  match d.toJson? room with
  | some v => .ok v
  | none => fail .unreadable

/-- `null` for none. -/
def optional {α : Type} (decode : Decoder α) : Decoder (Option α) := fun src d =>
  match d with
  | .null => .ok none
  | d => (decode src d).map some

/-- The source of the parts of a document. -/
def inside : Source → Except DecodeError Source
  | .value => .ok .value
  | .text 0 => fail .unreadable
  | .text (room + 1) => .ok (.text room)

/-- An object as a context. -/
def context : Decoder Context := fun src d =>
  match d with
  | .map fields ending => do
    let inner ← inside src
    let entries ← fields.mapM fun f => do
      let v ← value inner f.2
      pure (f.1, v)
    match ending with
    | .closed => .ok (Context.ofFields entries)
    | .cut => fail .unreadable
  | d => unexpected "a map" d

/-- An array of values of one type. -/
def list {α : Type} (decode : Decoder α) : Decoder (List α) := fun src d =>
  match d with
  | .seq items ending => do
    let inner ← inside src
    let values ← items.mapM (decode inner)
    match ending with
    | .closed => .ok values
    | .cut => fail .unreadable
  | d => unexpected "a sequence" d

/-- The constant named by a text; `names` lists the allowed texts. -/
def named {α : Type} (ofText? : String → Option α) (names : List String) (name : String) :
    Except DecodeError α :=
  match ofText? name with
  | some a => .ok a
  | none => fail (.unknownVariant name names)

/-- One of a few constants: its text, or an object with the text as its only key and `null` as the
value. -/
def oneOf {α : Type} (ofText? : String → Option α) (names : List String) : Decoder α := fun src d =>
  match src, d with
  | _, .str s => named ofText? names s
  | .value, .map [(k, v)] _ => keyed k v
  | .value, .map _ _ => fail (.outOfRange .map "map with a single key")
  | .value, d => unexpected "string or map" d
  | .text _, .map ((k, v) :: rest) ending => do
    let a ← keyed k v
    if rest.isEmpty ∧ ending = .closed then .ok a else fail .unreadable
  | .text _, _ => fail .unreadable
where
  /-- The constant of an object's only key. -/
  keyed (k : String) (v : Document) : Except DecodeError α := do
    let a ← named ofText? names k
    match v with
    | .null => .ok a
    | v => (unexpected "unit" v).mapError (·.under (.field k))

/-! ### Records -/

/-- Whether a field may be absent. -/
inductive Presence where
  /-- The field has to be there. -/
  | required
  /-- An object may leave it out, which means none; an array may not. -/
  | nullable
  /-- It may be left out, which means a default. -/
  | defaulted
  deriving DecidableEq, Repr

/-- A field of a record: its name, whether it may be absent, and whether a document fits it. -/
structure Slot where
  name : String
  presence : Presence
  check : Source → Document → Except DecodeError Unit

def slot {α : Type} (name : String) (presence : Presence) (decode : Decoder α) : Slot :=
  ⟨name, presence, fun src d => (decode src d).map fun _ => ()⟩

/-- Checks the fields of an object in their order. -/
def checkFields (slots : List Slot) (src : Source) (seen : List String) :
    List (String × Document) → Except DecodeError Unit
  | [] => .ok ()
  | (k, v) :: rest =>
    match slots.find? (·.name == k) with
    | none => if v.isCut then fail .unreadable else checkFields slots src seen rest
    | some s =>
      if seen.contains k then fail (.duplicate k)
      else
        match s.check src v with
        | .ok () => checkFields slots src (k :: seen) rest
        | .error e => .error (e.under (.field k))

/-- Pairs the items of an array with the fields of a record, checking each. -/
def checkItems (wanted : String) (src : Source) (ending : Ending) (total index : Nat) :
    List Slot → List Document → Except DecodeError (List (String × Document))
  | [], [] => if ending = .cut then fail .unreadable else .ok []
  | [], _ :: _ => if src = .value then fail (.tooLong total) else fail .unreadable
  | s :: slots, [] =>
    if ending = .cut then fail .unreadable
    else if s.presence = .defaulted then
      checkItems wanted src ending total (index + 1) slots []
    else fail (.tooShort index wanted)
  | s :: slots, d :: rest =>
    match s.check src d with
    | .error e => .error (e.under (.item index))
    | .ok () => do
      let fields ← checkItems wanted src ending total (index + 1) slots rest
      pure ((s.name, d) :: fields)

/-- The checked fields of a record. -/
structure Fields where
  source : Source
  fields : List (String × Document)

/-- How many elements a record wants as an array. -/
def elementsText (n : Nat) : String :=
  toString n ++ (if n = 1 then " element" else " elements")

/-- Reads the fields of the record `name`. -/
def record (name : String) (slots : List Slot) : Source → Document → Except DecodeError Fields :=
  fun src d =>
    match d with
    | .map fields ending => do
      let inner ← inside src
      checkFields slots inner [] fields
      if ending = .cut then fail .unreadable
      else
        match slots.find? fun s => s.presence == .required && !fields.any (·.1 == s.name) with
        | some s => fail (.missing s.name)
        | none => pure ⟨inner, fields⟩
    | .seq items ending => do
      let inner ← inside src
      let wanted := "struct " ++ name ++ " with " ++ elementsText slots.length
      let fields ← checkItems wanted inner ending items.length 0 slots items
      pure ⟨inner, fields⟩
    | d => unexpected ("struct " ++ name) d

namespace Fields

/-- The value of a field that has to be there. -/
def get {α : Type} (f : Fields) (name : String) (decode : Decoder α) : Except DecodeError α :=
  match f.fields.lookup name with
  | some d => decode f.source d
  | none => fail (.missing name)

/-- The value of a field, or the default of an absent one. -/
def getD {α : Type} (f : Fields) (name : String) (decode : Decoder α) (default : α) :
    Except DecodeError α :=
  match f.fields.lookup name with
  | some d => decode f.source d
  | none => .ok default

end Fields

end Decoder

/-- Reads a value off a JSON value. -/
def Decoder.ofJson {α : Type} (decode : Decoder α) (j : Json) : Except DecodeError α :=
  decode .value (.ofJson j)

end Clearance
