/-!
# Clearance — Files

A tree of text files, given by the path of each.  A directory exists as soon as a file lies below it,
and the root always does.
-/

namespace Clearance

/-- The files of a tree, each with the names that lead to it from the root. -/
structure FileTree where
  files : List (List String × String)
  deriving Repr, Inhabited

/-- Why a place in a tree cannot be read. -/
inductive FileError where
  | missing
  | notDirectory
  | isDirectory
  deriving DecidableEq, Repr

namespace FileError

def reason : FileError → String
  | .missing => "No such file or directory"
  | .notDirectory => "Not a directory"
  | .isDirectory => "Is a directory"

/-- The number a system gives the error. -/
def code : FileError → Nat
  | .missing => 2
  | .notDirectory => 20
  | .isDirectory => 21

end FileError

namespace FileTree

/-- The names in a path, separated by slashes; empty ones and `.` lead nowhere. -/
def pathOf (s : String) : List String := (s.splitOn "/").filter fun n => n != "" && n != "."

def ofFiles (files : List (String × String)) : FileTree := ⟨files.map fun f => (pathOf f.1, f.2)⟩

/-- The text of the file at a path. -/
def text? (t : FileTree) (path : List String) : Option String := t.files.lookup path

/-- Whether a directory is at a path. -/
def isDirectory (t : FileTree) (path : List String) : Bool :=
  path.isEmpty || t.files.any fun f => path.isPrefixOf f.1 && path.length < f.1.length

/-- The tree below a directory. -/
def below (t : FileTree) (path : List String) : FileTree :=
  ⟨t.files.filterMap fun f =>
    if path.isPrefixOf f.1 && path.length < f.1.length then some (f.1.drop path.length, f.2)
    else none⟩

/-- Opens the directory at a path. -/
def openDirectory (t : FileTree) (path : List String) : Except FileError FileTree :=
  if t.isDirectory path then .ok (t.below path)
  else if t.files.any fun f => f.1.isPrefixOf path then .error .notDirectory
  else .error .missing

/-- Reads the file of a name in the root. -/
def read (t : FileTree) (name : String) : Except FileError String :=
  match t.text? [name] with
  | some s => .ok s
  | none => .error (if t.isDirectory [name] then .isDirectory else .missing)

/-- The names in the root, in ascending order. -/
def names (t : FileTree) : List String :=
  (t.files.filterMap (·.1.head?)).eraseDups.mergeSort fun a b => decide (a ≤ b)

/-- What a file name has behind its last point, unless that point is its first character. -/
def extension? (name : String) : Option String :=
  let base := (name.toList.reverse.takeWhile (· != '/')).reverse
  let last := (base.reverse.takeWhile (· != '.')).reverse
  if last.length + 1 < base.length then some (String.ofList last) else none

end FileTree

end Clearance
