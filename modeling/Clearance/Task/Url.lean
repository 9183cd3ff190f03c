import Clearance.Text.Blank
import Clearance.Text.Upper
import Clearance.Text.Visible
import Clearance.Number.Shortest

/-!
# Clearance — Task — Addresses

Which texts are addresses of services, and how an address is written once it is understood: scheme
and host in lower case, a default port dropped, and an empty path made `/`.
-/

namespace Clearance

namespace Url

/-- The scheme in front of a colon, with what follows the colon. -/
def scheme? (cs : List Char) : Option (List Char × List Char) :=
  let name := cs.takeWhile fun c => c.isAlphanum || c == '+' || c == '-' || c == '.'
  match name, cs.drop name.length with
  | c :: _, ':' :: rest => if c.isAlpha then some (name.map Text.asciiLower, rest) else none
  | _, _ => none

/-- Characters that end an authority. -/
def endsAuthority (c : Char) : Bool := c == '/' || c == '\\' || c == '?' || c == '#'

/-- Characters that no host holds. -/
def isForbiddenInHost (c : Char) : Bool :=
  c.toNat ≤ 32 || c.toNat == 127 ||
    ['#', '/', ':', '<', '>', '?', '@', '[', '\\', ']', '^', '|', '%', '"', '{', '}', '`'].contains c

/-- A byte as a percent escape. -/
def percent (b : UInt8) : List Char :=
  ['%', Text.asciiUpper (Nat.digitChar (b.toNat / 16)), Text.asciiUpper (Nat.digitChar (b.toNat % 16))]

/-- Escapes what a part of an address may not hold as it is: blanks, characters beyond ASCII, and
those of `marks`. -/
def escape (marks : List Char) (cs : List Char) : List Char :=
  cs.flatMap fun c =>
    if c.toNat ≤ 32 || 127 ≤ c.toNat || marks.contains c then
      (String.singleton c).toUTF8.toList.flatMap percent
    else [c]

/-! ### Paths -/

/-- Splits a path at its slashes, which may lean either way. -/
def segments (segment : List Char) : List Char → List (List Char)
  | [] => [segment.reverse]
  | c :: rest =>
    if c == '/' || c == '\\' then segment.reverse :: segments [] rest else segments (c :: segment) rest

/-- A segment with its escaped points as points. -/
def pointed : List Char → List Char
  | '%' :: '2' :: 'e' :: rest | '%' :: '2' :: 'E' :: rest => '.' :: pointed rest
  | c :: rest => c :: pointed rest
  | [] => []

/-- Follows the segments of a path: one point stays where it is, and two go up. -/
def walk (passed : List (List Char)) : List (List Char) → List (List Char)
  | [] => passed.reverse
  | s :: rest =>
    let above := pointed s == ['.', '.']
    let passed := if above then passed.tail else passed
    if above || pointed s == ['.'] then
      if rest.isEmpty then ([] :: passed).reverse else walk passed rest
    else walk (s :: passed) rest

/-- Writes what follows the host: a path, then possibly a query and a fragment. -/
def target (cs : List Char) : List Char :=
  let path := cs.takeWhile fun c => c != '?' && c != '#'
  let rest := cs.drop path.length
  let query := rest.takeWhile (· != '#')
  let fragment := rest.drop query.length
  let parts := walk [] (segments [] (path.drop 1))
  parts.flatMap (fun s => '/' :: escape ['"', '<', '>', '`', '{', '}'] s) ++
    escape ['"', '<', '>', '\''] query ++ escape ['"', '<', '>', '`'] fragment

def portValue? (cs : List Char) : Option Nat :=
  if cs.all Char.isDigit then
    let n := cs.foldl (fun n c => n * 10 + (c.toNat - '0'.toNat)) 0
    if n < 65536 then some n else none
  else none

/-- The port that services of a scheme usually have. -/
def usualPort? (scheme : List Char) : Option Nat :=
  [("http", 80), ("https", 443), ("ftp", 21), ("ws", 80), ("wss", 443)].lookup (String.ofList scheme)

/-- Writes the address of a service behind its scheme; `none` when there is no valid host. -/
def service? (scheme : List Char) (usual : Nat) (rest : List Char) : Option String :=
  let rest := rest.dropWhile fun c => c == '/' || c == '\\'
  let authority := rest.takeWhile fun c => !endsAuthority c
  let after := rest.drop authority.length
  let hostPort := (authority.reverse.takeWhile (· != '@')).reverse
  let host := hostPort.takeWhile (· != ':')
  let port := (hostPort.drop host.length).drop 1
  if host.isEmpty || host.any isForbiddenInHost then none
  else
    match portValue? port with
    | none => none
    | some n =>
      let portText := if port.isEmpty || n == usual then [] else ':' :: Nat.toDigits 10 n
      some (String.ofList (scheme ++ [':', '/', '/'] ++ host.map Text.asciiLower ++ portText ++
        target after))

/-- The address a text stands for, or what is wrong with it. -/
def check (s : String) : Except String String :=
  let cs := (Text.dropEndWhile (·.toNat ≤ 32) (s.toList.dropWhile (·.toNat ≤ 32))).filter
    fun c => c != '\t' && c != '\n' && c != '\r'
  match scheme? cs with
  | none => .error "builder error"
  | some (scheme, rest) =>
    match usualPort? scheme with
    | none => .error ("builder error for url (" ++ String.ofList (scheme ++ ':' :: rest) ++ ")")
    | some usual =>
      match service? scheme usual rest with
      | none => .error "builder error"
      | some address =>
        if scheme == ['h', 't', 't', 'p'] || scheme == ['h', 't', 't', 'p', 's'] then .ok address
        else .error ("builder error for url (" ++ address ++ ")")

end Url

end Clearance
