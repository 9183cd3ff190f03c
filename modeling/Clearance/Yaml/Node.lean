import Clearance.Yaml.Lexer

/-!
# Clearance — Yaml — Nodes

The tree of a YAML document.  An alias stays a reference to the node it names, by a number: a node may
contain an alias of itself.  The number of a named node is how many different names there were before
it, so a name that is given again can share its number with another one; the number then means the
node that starts last.
-/

namespace Clearance

namespace Yaml

inductive Node where
  | scalar (text : String) (style : ScalarStyle) (tag : Option String)
  | seq (items : List Node) (tag : Option String)
  | map (entries : List (Node × Node)) (tag : Option String)
  | alias (anchor : Nat)
  deriving Repr, Inhabited

/-- A document: its root, its named nodes by their numbers, and how many events of reading it has. -/
structure Tree where
  root : Node
  anchors : List (Nat × Node)
  events : Nat

/-- What stands where nothing was written. -/
def Node.nothing : Node := .scalar "" .plain none

/-! ### Building -/

structure Builder where
  tokens : List Token
  /-- The tags that the handles stand for. -/
  handles : List (String × String)
  /-- The numbers of the names seen so far. -/
  names : List (String × Nat) := []
  /-- Which of the named nodes each number means, the latest first. -/
  places : List (Nat × Nat) := []
  /-- The named nodes that were read, by their places. -/
  anchors : List (Nat × Node) := []
  /-- How many nodes were named. -/
  named : Nat := 0
  events : Nat := 0

abbrev Build := StateT Builder Option

namespace Build

def peek : Build (Option Token) := do return (← get).tokens.head?

def skip : Build Unit := modify fun b => { b with tokens := b.tokens.tail }

def countEvents (n : Nat) : Build Unit := modify fun b => { b with events := b.events + n }

/-- Takes the next token, which has to be `t`. -/
def expect (t : Token) : Build Unit := do
  if (← peek) = some t then skip else failure

/-- Whether one of some tokens comes next, or none at all. -/
def stopsAt (ts : List Token) : Build Bool := do
  match ← peek with
  | some t => pure (ts.contains t)
  | none => pure true

/-- The node written where nothing is. -/
def nothing : Build Node := do
  countEvents 1
  pure .nothing

/-- The tag a handle and a suffix stand for. -/
def resolveTag (handle suffix : String) : Build String := do
  if handle = "" then pure suffix
  else
    match (← get).handles.lookup handle with
    | some start => pure (start ++ suffix)
    | none => failure

/-- Gives a number to a name, in place of an earlier one.  Answers the place of the node among the
named ones. -/
def name (n : String) : Build Nat :=
  modifyGet fun b =>
    let number := b.names.length
    (b.named, { b with
      names := (n, number) :: b.names.filter (·.1 != n)
      places := (number, b.named) :: b.places
      named := b.named + 1 })

def store (place : Nat) (n : Node) : Build Unit :=
  modify fun b => { b with anchors := (place, n) :: b.anchors }

/-- Reads an anchor and a tag, in either order. -/
def properties : Build (Option String × Option String) := do
  let anchor : Build (Option String) := do
    match ← peek with
    | some (.anchor n) => do
      skip
      pure (some n)
    | _ => pure none
  let tag : Build (Option String) := do
    match ← peek with
    | some (.tag handle suffix) => do
      skip
      some <$> resolveTag handle suffix
    | _ => pure none
  match ← anchor with
  | some a => return (some a, ← tag)
  | none =>
    let t ← tag
    if t.isSome then return (← anchor, t) else return (none, none)

mutual

/-- Reads a node.  `block` says whether a block collection may start here, `flat` whether the items of
a sequence may, which is then not indented. -/
def node (fuel : Nat) (block flat : Bool) : Build Node := do
  match fuel with
  | 0 => failure
  | fuel + 1 =>
    match ← peek with
    | some (.alias n) => do
      skip
      countEvents 1
      match (← get).names.lookup n with
      | some k => pure (.alias k)
      | none => failure
    | _ => do
      let (anchor, tag) ← properties
      let place ← anchor.mapM name
      let n ← content fuel block flat tag anchor.isSome
      if let some k := place then store k n
      pure n

/-- Reads what stands behind the properties of a node. -/
def content (fuel : Nat) (block flat : Bool) (tag : Option String) (named : Bool) : Build Node := do
  match fuel with
  | 0 => failure
  | fuel + 1 =>
    match ← peek with
    | some (.scalar text style) => do
      skip
      countEvents 1
      pure (.scalar text style (tag.filter (· != "!")))
    | some .flowSequence => do
      skip
      countEvents 2
      return .seq (← flowItems fuel true) tag
    | some .flowMapping => do
      skip
      countEvents 2
      return .map (← flowEntries fuel true) tag
    | some .blockSequence =>
      if block then do
        skip
        countEvents 2
        return .seq (← blockItems fuel) tag
      else failure
    | some .blockMapping =>
      if block then do
        skip
        countEvents 2
        return .map (← blockEntries fuel) tag
      else failure
    | t =>
      if flat && t = some .blockEntry then do
        countEvents 2
        return .seq (← flatItems fuel) tag
      else if named || tag.isSome then do
        countEvents 1
        pure (.scalar "" .plain (tag.filter (· != "!")))
      else failure

/-- Reads a node, or nothing if one of `ts` comes next. -/
def nodeUnless (fuel : Nat) (block flat : Bool) (ts : List Token) : Build Node := do
  match fuel with
  | 0 => failure
  | fuel + 1 => if ← stopsAt ts then nothing else node fuel block flat

/-- Reads the items of a block sequence and its end. -/
def blockItems (fuel : Nat) : Build (List Node) := do
  match fuel with
  | 0 => failure
  | fuel + 1 =>
    match ← peek with
    | some .blockEntry => do
      skip
      let n ← nodeUnless fuel true false [.blockEntry, .blockEnd]
      return n :: (← blockItems fuel)
    | some .blockEnd => do
      skip
      pure []
    | _ => failure

/-- Reads the items of a sequence that is not indented. -/
def flatItems (fuel : Nat) : Build (List Node) := do
  match fuel with
  | 0 => failure
  | fuel + 1 =>
    match ← peek with
    | some .blockEntry => do
      skip
      let n ← nodeUnless fuel true false [.blockEntry, .key, .value, .blockEnd]
      return n :: (← flatItems fuel)
    | _ => pure []

/-- Reads the entries of a block mapping and its end. -/
def blockEntries (fuel : Nat) : Build (List (Node × Node)) := do
  match fuel with
  | 0 => failure
  | fuel + 1 =>
    match ← peek with
    | some .key => do
      skip
      let k ← nodeUnless fuel true true [.key, .value, .blockEnd]
      let v ← blockValue fuel
      return (k, v) :: (← blockEntries fuel)
    | some .blockEnd => do
      skip
      pure []
    | _ => failure

/-- Reads the value of a block mapping's entry, if it has one. -/
def blockValue (fuel : Nat) : Build Node := do
  match fuel with
  | 0 => failure
  | fuel + 1 =>
    if (← peek) = some .value then do
      skip
      nodeUnless fuel true true [.key, .value, .blockEnd]
    else nothing

/-- Reads the items of a sequence in brackets, and its end. -/
def flowItems (fuel : Nat) (first : Bool) : Build (List Node) := do
  match fuel with
  | 0 => failure
  | fuel + 1 =>
    if (← peek) = some .flowSequenceEnd then do
      skip
      pure []
    else do
      if !first then expect .flowEntry
      match ← peek with
      | some .flowSequenceEnd => do
        skip
        pure []
      | some .key => do
        skip
        countEvents 2
        let k ← pairKey fuel
        let v ← flowValue fuel [.flowEntry, .flowSequenceEnd]
        return .map [(k, v)] none :: (← flowItems fuel false)
      | _ => do
        let n ← node fuel false false
        return n :: (← flowItems fuel false)

/-- Reads the key of a pair that stands in a sequence.  A pair without a key loses the token in its
place. -/
def pairKey (fuel : Nat) : Build Node := do
  match fuel with
  | 0 => failure
  | fuel + 1 =>
    if ← stopsAt [.value, .flowEntry, .flowSequenceEnd] then do
      skip
      nothing
    else node fuel false false

/-- Reads the value of an entry in brackets, if it has one. -/
def flowValue (fuel : Nat) (ts : List Token) : Build Node := do
  match fuel with
  | 0 => failure
  | fuel + 1 =>
    if (← peek) = some .value then do
      skip
      nodeUnless fuel false false ts
    else nothing

/-- Reads the entries of a mapping in braces, and its end. -/
def flowEntries (fuel : Nat) (first : Bool) : Build (List (Node × Node)) := do
  match fuel with
  | 0 => failure
  | fuel + 1 =>
    if (← peek) = some .flowMappingEnd then do
      skip
      pure []
    else do
      if !first then expect .flowEntry
      match ← peek with
      | some .flowMappingEnd => do
        skip
        pure []
      | some .key => do
        skip
        let k ← nodeUnless fuel false false [.value, .flowEntry, .flowMappingEnd]
        let v ← flowValue fuel [.flowEntry, .flowMappingEnd]
        return (k, v) :: (← flowEntries fuel false)
      | _ => do
        let k ← node fuel false false
        let v ← nothing
        return (k, v) :: (← flowEntries fuel false)

end

/-! ### Documents -/

/-- The handles every document knows. -/
def usualHandles : List (String × String) := [("!", "!"), ("!!", "tag:yaml.org,2002:")]

/-- Reads the directives in front of a document.  Answers whether there were any. -/
def directives (fuel : Nat) (version : Bool) (seen : List String) : Build Bool := do
  match fuel with
  | 0 => failure
  | fuel + 1 =>
    match ← peek with
    | some (.version major minor) => do
      if version ∨ major ≠ 1 ∨ ¬(minor = 1 ∨ minor = 2) then failure
      skip
      let _ ← directives fuel true seen
      pure true
    | some (.tagHandle handle start) => do
      if seen.contains handle then failure
      skip
      modify fun b => { b with handles := (handle, start) :: b.handles }
      let _ ← directives fuel version (handle :: seen)
      pure true
    | _ => pure false

/-- Skips the marks behind a document. -/
def documentEnds (fuel : Nat) : Build Unit := do
  match fuel with
  | 0 => failure
  | fuel + 1 =>
    if (← peek) = some .documentEnd then do
      skip
      documentEnds fuel

/-- Reads the only document of a text. -/
def document (fuel : Nat) : Build Node := do
  let declared ← directives fuel false []
  let marked := (← peek) = some .documentStart
  if declared && !marked then failure
  if (← peek).isNone then failure
  let root ←
    if marked then do
      skip
      match ← peek with
      | none | some .documentStart | some .documentEnd | some (.version _ _)
      | some (.tagHandle _ _) => nothing
      | _ => node fuel true false
    else node fuel true false
  documentEnds fuel
  if (← peek).isSome then failure
  pure root

end Build

/-- The document of characters that hold exactly one. -/
def Tree.ofChars? (cs : List Char) : Option Tree := do
  let tokens ← tokens? cs
  let (root, b) ← (Build.document (3 * tokens.length + 4)).run
    { tokens := tokens, handles := Build.usualHandles }
  let anchors := b.places.filterMap fun (number, place) =>
    (b.anchors.lookup place).map (number, ·)
  some ⟨root, anchors, b.events⟩

/-- The document of a text that holds exactly one. -/
def Tree.ofText? (s : String) : Option Tree := ofChars? s.toList

end Yaml

end Clearance
