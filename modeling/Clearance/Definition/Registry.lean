import Clearance.Context
import Clearance.Definition.Yaml
import Clearance.Files

/-!
# Clearance — Definition — Registries

The definitions an engine can make instances of, by name.  A registry is sorted by name and holds one
definition of each; it can be filled from the YAML files of a directory, where one invalid file fails
the whole.
-/

namespace Clearance

structure Registry where
  entries : List (String × WorkflowDefinition)
  sorted : Sorted entries := by simp [Sorted]

namespace Registry

def empty : Registry := ⟨[], by simp [Sorted]⟩

instance : Inhabited Registry := ⟨empty⟩

/-- Adds a definition, in place of any of the same name. -/
def insert (r : Registry) (d : WorkflowDefinition) : Registry :=
  ⟨insertField d.name d r.entries, sorted_insertField d.name d r.sorted⟩

def ofList (ds : List WorkflowDefinition) : Registry := ds.foldl insert empty

def get? (r : Registry) (name : String) : Option WorkflowDefinition := r.entries.lookup name

def names (r : Registry) : List String := r.entries.map Prod.fst

def size (r : Registry) : Nat := r.entries.length

def isEmpty (r : Registry) : Bool := r.entries.isEmpty

/-- Whether a file holds a definition, by its name. -/
def isDefinitionFile (name : String) : Bool :=
  FileTree.extension? name == some "yaml" || FileTree.extension? name == some "yml"

/-- A failure to read as a failure to get a definition. -/
def fileResult {α : Type} (r : Except FileError α) : Except DefinitionError α :=
  r.mapError fun e => .unreadableFile e.reason e.code

/-- The definition in a file. -/
def readFile (t : FileTree) (name : String) : Except DefinitionError WorkflowDefinition := do
  WorkflowDefinition.ofYaml (← fileResult (t.read name))

/-- The definitions in a directory, read in the order of the file names. -/
def ofDirectory (t : FileTree) (path : List String) : Except DefinitionError Registry := do
  let folder ← fileResult (t.openDirectory path)
  let ds ← (folder.names.filter isDefinitionFile).mapM (readFile folder)
  pure (ofList ds)

end Registry

end Clearance
