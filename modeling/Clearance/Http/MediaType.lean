import Clearance.Text.Upper

/-!
# Clearance — HTTP — Media types

The type that a request declares its body to have: a type and a subtype, the subtype possibly with a
suffix that names the format it is built on, and then parameters, which only have to be well formed.
Letter case does not matter.
-/

namespace Clearance

structure MediaType where
  type : String
  subtype : String
  suffix : Option String
  deriving DecidableEq, Repr

namespace MediaType

/-- The characters of names and of plain parameter values. -/
def isToken (c : Char) : Bool := c.isAlphanum || "!#$%&'*+-.^_`|~".toList.contains c

/-- What may stand between the quotes of a parameter value. -/
def isQuotable (c : Char) : Bool := 32 ≤ c.toNat && c.toNat < 127

/-- The text behind a quoted value and its quotes; `none` when it is not one.  The first character
of a value may be a quote. -/
def afterQuoted? : List Char → Option (List Char)
  | first :: cs =>
    if isQuotable first then
      match cs.dropWhile fun c => isQuotable c && c != '"' with
      | '"' :: rest => some rest
      | _ => none
    else none
  | [] => none

/-- Whether parameters are well formed: names with values, separated by semicolons. -/
def areParameters : Nat → List Char → Bool
  | 0, _ => false
  | fuel + 1, cs =>
    let cs := cs.dropWhile (· == ' ')
    let name := cs.takeWhile isToken
    match cs.drop name.length with
    | '=' :: '"' :: value =>
      !name.isEmpty &&
        match afterQuoted? value with
        | none => false
        | some rest =>
          match rest.dropWhile (· == ' ') with
          | [] => true
          | ';' :: more => more.isEmpty || areParameters fuel more
          | _ => false
    | '=' :: cs =>
      let value := cs.takeWhile isToken
      !name.isEmpty &&
        match cs.drop value.length with
        | [] => true
        | ';' :: more => !value.isEmpty && (more.isEmpty || areParameters fuel more)
        | _ => false
    | _ => false

/-- A subtype and its suffix, which the last plus sign separates. -/
def splitSuffix (name : List Char) : String × Option String :=
  let suffix := (name.reverse.takeWhile (· != '+')).reverse
  if suffix.length + 1 < name.length then
    (String.ofList (name.take (name.length - suffix.length - 1)), some (String.ofList suffix))
  else (String.ofList name, none)

def parse? (s : String) : Option MediaType :=
  let cs := s.toList.map Text.asciiLower
  let type := cs.takeWhile isToken
  match cs.drop type.length with
  | '/' :: cs =>
    let name := cs.takeWhile isToken
    let (subtype, suffix) := splitSuffix name
    let m : MediaType := ⟨String.ofList type, subtype, suffix⟩
    if type.isEmpty then none
    else
      match cs.drop name.length with
      | [] => some m
      | ';' :: rest => if !name.isEmpty && areParameters (rest.length + 1) rest then some m else none
      | _ => none
  | _ => none

/-- Whether the body is JSON, or something built on it. -/
def isJson (m : MediaType) : Bool :=
  m.type == "application" && (m.subtype == "json" || m.suffix == some "json")

end MediaType

end Clearance
