import Clearance.Number.Double

/-!
# Clearance — Toml — Documents

A TOML document is a table.  How a table came to be decides what may still be added to it:
`Table.Origin` says whether a header opened it, a longer header or a dotted key passed through it, or
it was written in braces.
-/

namespace Clearance

namespace Toml

inductive Origin where
  | opened
  | passed
  | dotted
  | braced
  deriving DecidableEq, Repr

inductive Value where
  | bool (b : Bool)
  | int (n : Int)
  | double (d : Double)
  | text (s : String)
  | array (items : List Value)
  | table (origin : Origin) (entries : List (String × Value))
  /-- Tables that share a header, the last one first. -/
  | tables (all : List (List (String × Value)))
  deriving Repr, Inhabited

/-- A table's entries in the order of their first appearance. -/
abbrev Entries := List (String × Value)

/-- Replaces or adds an entry. -/
def setEntry (key : String) (v : Value) : Entries → Entries
  | [] => [(key, v)]
  | (k, w) :: rest => if k = key then (k, v) :: rest else (k, w) :: setEntry key v rest

/-- Adds a value under a dotted key; its last part must be new, and the others name tables that
dotted keys made. -/
def addValue? (t : Entries) (path : List String) (v : Value) : Option Entries :=
  match path with
  | [] => none
  | [k] => if (t.lookup k).isSome then none else some (setEntry k v t)
  | k :: rest =>
    match t.lookup k with
    | none => (addValue? [] rest v).map fun inner => setEntry k (.table .dotted inner) t
    | some (.table .dotted inner) =>
      (addValue? inner rest v).map fun inner => setEntry k (.table .dotted inner) t
    | some _ => none

/-- Changes the table that a header's path leads to.  A table shared by a header is its last one. -/
def atPath? (t : Entries) (path : List String) (f : Entries → Option Entries) : Option Entries :=
  match path with
  | [] => f t
  | k :: rest =>
    match t.lookup k with
    | none => (atPath? [] rest f).map fun inner => setEntry k (.table .passed inner) t
    | some (.table .braced _) => none
    | some (.table origin inner) =>
      (atPath? inner rest f).map fun inner => setEntry k (.table origin inner) t
    | some (.tables (last :: before)) =>
      (atPath? last rest f).map fun last => setEntry k (.tables (last :: before)) t
    | some _ => none

/-- Opens the table of a header. -/
def openTable? (t : Entries) (path : List String) : Option Entries :=
  match path.getLast? with
  | none => none
  | some k =>
    atPath? t path.dropLast fun inner =>
      match inner.lookup k with
      | none => some (setEntry k (.table .opened []) inner)
      | some (.table .passed es) => some (setEntry k (.table .opened es) inner)
      | some _ => none

/-- Opens one more table of a shared header. -/
def openNext? (t : Entries) (path : List String) : Option Entries :=
  match path.getLast? with
  | none => none
  | some k =>
    atPath? t path.dropLast fun inner =>
      match inner.lookup k with
      | none => some (setEntry k (.tables [[]]) inner)
      | some (.tables all) => some (setEntry k (.tables ([] :: all)) inner)
      | some _ => none

end Toml

end Clearance
